import CreamBots.Builders.Liquidity.Schedule
import CreamBots.Data.Spans

/-! What the tick maps say of a pool.

A position puts liquidity on a range of ticks, and whoever reads the maps wants to
know how much is in force at a tick: the net liquidity of the ticks up to it, added
up. The events of a pool are spans, a burn of negative weight, and a tick map that
reflects them holds at each tick their jump and what they hold there (`Data.Spans`).
On a chain where no range has ever had more burnt than minted (`NeverShort`, which
Uniswap's position accounting sees to) an emptied tick is emptied clean, so the maps
that any schedule of fetcher runs leaves give every tick the liquidity that the pool
has in force there (`snapshot_in_force`), and the bitmap marks the ticks at which a
range with liquidity ends and no others (`bitmap_marks_ends`). -/
namespace CreamBots.Builders.Liquidity
open Data

namespace ExternalUpdate

def span (update : ExternalUpdate) : Span Int Int where
  lo := update.liquidityChange.tickLower
  hi := update.liquidityChange.tickUpper
  lo_lt_hi := update.liquidityChange.lower_lt_upper
  weight := update.liquidityChange.amount

/-- The jump and the weight that one update brings to a tick. -/
theorem share_eq (update : ExternalUpdate) (tick : Int) :
    update.share tick = ⟨Span.jump [update.span] tick, Span.held [update.span] tick⟩ := by
  have hne := Int.ne_of_lt update.liquidityChange.lower_lt_upper
  rw [share, LiquidityChange.posting, Span.jump, Span.held, Span.weigh_cons, Span.weigh_cons]
  simp only [Span.weigh_nil, add_zero, span]
  by_cases hl : tick = update.liquidityChange.tickLower
  · subst hl
    simp [hne]
  · by_cases hu : tick = update.liquidityChange.tickUpper
    · subst hu
      simp [hl]
    · simp [hl, hu]
      rfl

end ExternalUpdate

/-- A list of updates as spans. -/
def spans (updates : List ExternalUpdate) : List (Span Int Int) := updates.map ExternalUpdate.span

theorem posted_eq (updates : List ExternalUpdate) (tick : Int) :
    posted updates tick = ⟨Span.jump (spans updates) tick, Span.held (spans updates) tick⟩ := by
  induction updates with
  | nil => rfl
  | cons update rest ih =>
    rw [posted_cons, ih, ExternalUpdate.share_eq]
    apply LiquidityAtTick.ext
    · simp [spans, Span.jump, Span.weigh_cons]
    · simp [spans, Span.held, Span.weigh_cons]

/-- No range has ever had more burnt than minted. -/
def NeverShort (updates : List ExternalUpdate) : Prop :=
  ∀ q, q <+: updates → Span.Backed (spans q)

namespace NeverShort
variable {degenbot : Degenbot} {fee tickSpacing : Nat} {updates : List ExternalUpdate}

theorem of_gains (h : ∀ update ∈ updates, 0 ≤ update.liquidityChange.amount) :
    NeverShort updates := by
  intro q hq lo hi
  apply List.sum_nonneg
  intro x hx
  obtain ⟨s, hs, rfl⟩ := List.mem_map.mp hx
  obtain ⟨update, hu, rfl⟩ := List.mem_map.mp hs
  have hamount : 0 ≤ update.span.weight := h update (hq.subset hu)
  refine mul_nonneg ?_ hamount
  dsimp only
  split_ifs
  · exact zero_le_one
  · exact le_refl _

theorem neverNegative (h : NeverShort updates) :
    NeverNegative degenbot (freshHelper fee tickSpacing) updates := by
  intro q hq tick
  have hnone : ((freshHelper fee tickSpacing).maps.atTick tick).liquidityGross = 0 := rfl
  rw [gross_replay, hnone, posted_eq, zero_add]
  exact (h q hq).held_nonneg tick

/-- A tick that no liquidity refers to has no net liquidity to forget. -/
theorem closesClean (h : NeverShort updates) (tick : Int) :
    Account.ClosesClean LiquidityAtTick.Unreferenced none (postings updates tick) := by
  intro q hq _ hdead
  obtain ⟨p, hp, rfl⟩ := List.prefix_filterMap_iff.mp hq
  have hsum : (none : Option LiquidityAtTick).getD 0 + (postings p tick).sum = posted p tick := by
    rw [sum_postings]
    exact zero_add _
  have hsame : (p.filterMap fun update => update.liquidityChange.posting tick) = postings p tick :=
    rfl
  rw [hsame, hsum, posted_eq] at hdead ⊢
  have hheld : Span.held (spans p) tick = 0 := hdead
  rw [hheld, (h p hp).jump_eq_zero hheld]
  rfl

theorem of_prefix {q : List ExternalUpdate} (h : NeverShort updates) (hq : q <+: updates) :
    NeverShort q :=
  fun p hp => h p (hp.trans hq)

theorem emptiesClean (h : NeverShort updates) :
    EmptiesClean degenbot (freshHelper fee tickSpacing) updates := by
  intro q update hq tick x hx hgross
  have hshort := h.of_prefix ((List.prefix_append ..).trans hq)
  have hat : (replay degenbot (freshHelper fee tickSpacing) q).maps.atTick tick + x =
      posted (q ++ [update]) tick := by
    have hclean : Account.ClosesClean LiquidityAtTick.Unreferenced
        ((freshHelper fee tickSpacing).tickData.get? tick) (postings q tick) := hshort.closesClean tick
    rw [atTick_replay_eq hclean, ← sum_postings, ← sum_postings, postings_append, List.sum_append]
    have hone : postings [update] tick = [x] := by
      simp [postings, hx]
    have hnone : (freshHelper fee tickSpacing).maps.atTick tick = 0 := rfl
    rw [hone, hnone, zero_add, List.sum_singleton]
  rw [hat, posted_eq] at hgross ⊢
  exact (h _ hq).jump_eq_zero hgross

end NeverShort

/-! ### Maps that reflect a pool's events -/

/-- The ticks of the map. -/
def TickMaps.ticks (maps : TickMaps) : Finset Int := maps.tickData.keys.toFinset

namespace Reflects
variable {tickSpacing : Nat} {maps : TickMaps} {updates : List ExternalUpdate}

theorem atTick_eq (h : Reflects tickSpacing maps updates) (hshort : NeverShort updates) (tick : Int) :
    maps.atTick tick = ⟨Span.jump (spans updates) tick, Span.held (spans updates) tick⟩ := by
  rw [TickMaps.atTick, h.ticks, Account.getD_postAll (hshort.closesClean tick), sum_postings,
    posted_eq]
  exact zero_add _

/-- A tick that no liquidity refers to is not kept. -/
theorem gross_ne_zero (h : Reflects tickSpacing maps updates) {tick : Int} (htick : tick ∈ maps.ticks) :
    (maps.atTick tick).liquidityGross ≠ 0 := by
  rw [TickMaps.ticks, List.mem_toFinset, Dict.mem_keys] at htick
  obtain ⟨l, hl⟩ := htick
  have hlive : Account.Live LiquidityAtTick.Unreferenced (some l) := by
    rw [← hl, h.ticks]
    exact Account.live_none.postAll _
  rw [TickMaps.atTick, hl]
  exact hlive l rfl

/-- Gross liquidity is what the ranges hold, whatever was forgotten of the net. -/
theorem gross_eq (h : Reflects tickSpacing maps updates) (tick : Int) :
    (maps.atTick tick).liquidityGross = Span.held (spans updates) tick := by
  let fresh := freshHelper 0 tickSpacing
  have hscratch : Reflects tickSpacing (Liquidity.replay (tickAccounting true) fresh updates).maps
      updates := fromScratch 0 tickSpacing updates
  have hsame := (h.agrees hscratch).tickData tick
  have hgross : ((Liquidity.replay (tickAccounting true) fresh updates).maps.atTick
      tick).liquidityGross = _ := gross_replay fresh updates tick
  have hnone : (fresh.maps.atTick tick).liquidityGross = 0 := rfl
  rw [hnone, posted_eq, zero_add] at hgross
  rw [TickMaps.atTick, hsame]
  exact hgross

theorem mem_ticks (h : Reflects tickSpacing maps updates) {tick : Int} :
    tick ∈ maps.ticks ↔ Span.held (spans updates) tick ≠ 0 := by
  rw [← h.gross_eq tick]
  refine ⟨h.gross_ne_zero, fun hgross => ?_⟩
  by_contra hnone
  rw [TickMaps.ticks, List.mem_toFinset, ← Dict.get?_eq_none] at hnone
  rw [TickMaps.atTick, hnone] at hgross
  exact hgross rfl

theorem jump_eq_zero (h : Reflects tickSpacing maps updates) (hshort : NeverShort updates) {tick : Int}
    (htick : tick ∉ maps.ticks) : Span.jump (spans updates) tick = 0 := by
  rw [h.mem_ticks, not_not] at htick
  exact (hshort _ (List.prefix_refl _)).jump_eq_zero htick

/-- The net liquidity of the ticks up to one is what the ranges put there. -/
theorem sum_net (h : Reflects tickSpacing maps updates) (hshort : NeverShort updates) (tick : Int) :
    ∑ t ∈ maps.ticks with t ≤ tick, (maps.atTick t).liquidityNet = Span.level (spans updates) tick := by
  rw [← Span.sum_jump (fun _ => h.jump_eq_zero hshort) tick]
  apply Finset.sum_congr rfl
  intro t _
  rw [h.atTick_eq hshort]

theorem sum_net_all (h : Reflects tickSpacing maps updates) (hshort : NeverShort updates) :
    ∑ t ∈ maps.ticks, (maps.atTick t).liquidityNet = 0 := by
  rw [← Span.sum_jump_all (fun _ => h.jump_eq_zero hshort)]
  apply Finset.sum_congr rfl
  intro t _
  rw [h.atTick_eq hshort]

/-- A tick of the map is one that an update ends at. -/
theorem exists_end (h : Reflects tickSpacing maps updates) {tick : Int} (htick : tick ∈ maps.ticks) :
    ∃ update ∈ updates, tick = update.liquidityChange.tickLower ∨
      tick = update.liquidityChange.tickUpper := by
  have hne : postings updates tick ≠ [] := by
    intro hnil
    have hget := h.ticks tick
    rw [hnil, Account.postAll_nil] at hget
    rw [TickMaps.ticks, List.mem_toFinset, Dict.mem_keys, hget] at htick
    obtain ⟨_, hsome⟩ := htick
    cases hsome
  obtain ⟨x, hx⟩ := List.exists_mem_of_ne_nil _ hne
  obtain ⟨update, hu, hpost⟩ := List.mem_filterMap.mp hx
  refine ⟨update, hu, ?_⟩
  rcases LiquidityChange.posting_eq_some hpost with ⟨hl, _⟩ | ⟨hu, _⟩
  · exact .inl hl
  · exact .inr hu

end Reflects

/-! ### The bitmap -/

/-- The range of every update ends on multiples of the spacing. -/
def OnSpacing (tickSpacing : Nat) (updates : List ExternalUpdate) : Prop :=
  ∀ update ∈ updates, (tickSpacing : Int) ∣ update.liquidityChange.tickLower ∧
    (tickSpacing : Int) ∣ update.liquidityChange.tickUpper

/-- Multiples of the spacing have bits of their own. -/
theorem slot_injective {tickSpacing : Nat} {a b : Int} (ha : (tickSpacing : Int) ∣ a)
    (hb : (tickSpacing : Int) ∣ b) (h : slot tickSpacing a = slot tickSpacing b) : a = b := by
  rw [slot, slot, Prod.mk.injEq] at h
  obtain ⟨hword, hbit⟩ := h
  have hquot : a / tickSpacing = b / tickSpacing := by omega
  rw [← Int.ediv_mul_cancel ha, ← Int.ediv_mul_cancel hb, hquot]

theorem Reflects.testBit_iff {tickSpacing : Nat} {maps : TickMaps} {updates : List ExternalUpdate}
    (h : Reflects tickSpacing maps updates) (hspacing : OnSpacing tickSpacing updates) (w : Int)
    (bit : Nat) : (maps.word w).testBit bit = true ↔
      ∃ tick ∈ maps.ticks, slot tickSpacing tick = (w, bit) := by
  have hmultiple : ∀ tick ∈ maps.tickData.keys, (tickSpacing : Int) ∣ tick := by
    intro tick htick
    obtain ⟨update, hu, rfl | rfl⟩ := h.exists_end (List.mem_toFinset.mpr htick)
    · exact (hspacing update hu).1
    · exact (hspacing update hu).2
  rw [h.bits w bit, TickMaps.ticksAt]
  simp only [TickMaps.ticks, List.mem_toFinset]
  constructor
  · intro hodd
    by_contra hnone
    rw [List.countP_eq_zero.mpr fun tick htick hs => hnone ⟨tick, htick, of_decide_eq_true hs⟩] at hodd
    cases hodd
  · intro h
    obtain ⟨tick, htick, hslot⟩ := h
    have hone : maps.tickData.keys.countP (fun t => decide (slot tickSpacing t = (w, bit))) =
        maps.tickData.keys.count tick := by
      rw [List.count]
      apply List.countP_congr
      intro t ht
      rw [decide_eq_true_iff, beq_iff_eq, ← hslot]
      exact ⟨slot_injective (hmultiple t ht) (hmultiple tick htick), fun he => by rw [he]⟩
    rw [hone, List.count_eq_one_of_mem maps.tickData.nodup_keys htick]
    rfl

/-! ### What a schedule replays -/

section Schedule
variable {chain : Chain} {degenbot : Degenbot} {span : SpanRule}

namespace World
variable (degenbot) (span)

open Classical in
/-- A liquidity run that writes its snapshot replays, for a pool that an LP file lists,
the pool's events of its blocks. -/
noncomputable def replays (world : World chain) (step : Step chain) (pool : Address) :
    List ExternalUpdate :=
  match step with
  | .lpFetcher _ _ => []
  | .liquidityFetcher run =>
    match world.liquidityRun degenbot span run with
    | .ok _ =>
      if world.Lists pool then fetchUpdates pool (chain.between world.nextBlock (run.newestBlock + 1))
      else []
    | .error _ => []

/-- What the runs of a schedule replay for a pool. -/
noncomputable def replayed (world : World chain) : List (Step chain) → Address → List ExternalUpdate
  | [], _ => []
  | step :: rest, pool =>
    world.replays degenbot span step pool ++ (world.step degenbot span step).replayed rest pool

variable {degenbot span} {world : World chain} {pool : Address}

theorem exists_of_mem_replays {step : Step chain} {update : ExternalUpdate}
    (h : update ∈ world.replays degenbot span step pool) :
    ∃ e ∈ chain.history, e.address = pool ∧ update = e.update := by
  cases step with
  | lpFetcher i run => cases h
  | liquidityFetcher run =>
    rw [replays] at h
    cases hw : world.liquidityRun degenbot span run with
    | error _ =>
      rw [hw] at h
      cases h
    | ok written =>
      rw [hw] at h
      simp only at h
      split at h
      · obtain ⟨e, he, ha, hu⟩ := exists_of_mem_fetchUpdates h
        exact ⟨e, (chain.mem_between.mp he).1, ha, hu⟩
      · cases h

/-- Only the pool's own events are replayed. -/
theorem exists_of_mem_replayed {update : ExternalUpdate} (steps : List (Step chain)) :
    ∀ {world : World chain}, update ∈ world.replayed degenbot span steps pool →
      ∃ e ∈ chain.history, e.address = pool ∧ update = e.update := by
  induction steps with
  | nil =>
    intro world h
    cases h
  | cons step rest ih =>
    intro world h
    rcases List.mem_append.mp h with h | h
    · exact exists_of_mem_replays h
    · exact ih h

end World

/-- The snapshot in the file reflects a ledger for every pool. -/
def SnapshotHolds (chain : Chain) (file : Option SnapshotFile)
    (ledger : Address → List ExternalUpdate) : Prop :=
  ∃ snapshot, (∀ newestBlock, (∀ block, savedBlock file = some block → block < newestBlock) →
      loadSnapshot file newestBlock = .ok (savedBlock file, snapshot)) ∧
    ∀ pool, Reflects (chain.tickSpacing pool) ((snapshot.get? pool).getD TickMaps.empty) (ledger pool)

structure Kept (world : World chain) (ledger : Address → List ExternalUpdate) : Prop where
  lp : ∀ i, LpFetcher.FileScanned (chain.creations i) (chain.factory i) (world.lpFiles i)
  snapshot : SnapshotHolds chain world.snapshotFile ledger

namespace Kept
variable {world : World chain} {ledger : Address → List ExternalUpdate}

theorem start : Kept (World.start : World chain) fun _ => [] := by
  refine ⟨fun i content h => (by cases h), Dict.empty, fun _ _ => rfl, fun pool => ?_⟩
  exact Reflects.empty _

/-- A run extends the ledgers of the pools that are listed, and of no others. -/
theorem run (h : Kept world ledger) (hplace : degenbot.inPlace = true) {run : Run} {written : Written}
    (hw : world.liquidityRun degenbot span run = .ok written) :
    SnapshotHolds chain (some written.file) fun pool =>
      ledger pool ++ world.replays degenbot span (.liquidityFetcher run) pool := by
  obtain ⟨lps, last, snapshot, snapshot', hlps, hload, hfetch, _, hloop, hfile⟩ := main_eq_ok hw
  obtain ⟨rfl, hheight⟩ := loadSnapshot_block hload
  obtain ⟨_, hload', hright⟩ := h.snapshot
  cases hload.symm.trans (hload' run.newestBlock hheight)
  rw [SnapshotHolds, main_savedBlock hw]
  refine ⟨snapshot'.mapValues TickMaps.tidy, fun newestBlock hnewest => ?_, fun pool => ?_⟩
  · rw [hfile]
    exact loadSnapshot_saveSnapshot snapshot' (hnewest _ rfl)
  rw [Dict.get?_mapValues]
  apply Reflects.tidy_entry
  have hqueue : sortedUpdates ((written.queue.get? pool).getD []) =
      fetchUpdates pool (chain.between world.nextBlock (run.newestBlock + 1)) := by
    rw [Written.queue, fetch_events (hfetch .mint), fetch_events (hfetch .burn)]
    exact chain.sortedUpdates_collect ..
  rw [World.replays, hw]
  by_cases hlisted : world.Lists pool
  · simp only [hlisted, if_true]
    obtain ⟨lp, hlp⟩ := (lists_iff hlps).mp hlisted
    by_cases hkey : pool ∈ written.queue.keys
    · obtain ⟨maps, hmaps, hget⟩ := replayPools_listed written.queue.nodup_keys hkey hlp hloop
      have hentry := (hright pool).replayEntry hplace (fee_of_listed h.lp hlps hlp) hmaps
      rw [hget, ← hqueue]
      exact hentry
    · rw [replayPools_other (.inl hkey) hloop, ← hqueue, Dict.get?_eq_none.mpr hkey]
      have hnone : sortedUpdates ((none : Option (List QueuedEvent)).getD []) = [] := rfl
      rw [hnone, List.append_nil]
      exact hright pool
  · simp only [hlisted, if_false, List.append_nil]
    rw [replayPools_other (.inr ?_) hloop]
    · exact hright pool
    · rw [← Option.not_isSome_iff_eq_none, Option.isSome_iff_exists, ← lists_iff hlps]
      exact hlisted

theorem step (h : Kept world ledger) (hplace : degenbot.inPlace = true) (step : Step chain) :
    Kept (world.step degenbot span step) fun pool =>
      ledger pool ++ world.replays degenbot span step pool := by
  cases step with
  | lpFetcher i run =>
    refine ⟨fun j => ?_, ?_⟩
    · show LpFetcher.FileScanned _ _ (Function.update world.lpFiles i _ j)
      by_cases hj : j = i
      · subst hj
        rw [Function.update_self]
        exact LpFetcher.fileScanned_after (h.lp j) run
      · rw [Function.update_of_ne hj]
        exact h.lp j
    · simp only [World.replays, List.append_nil]
      exact h.snapshot
  | liquidityFetcher run =>
    rw [World.step]
    cases hw : world.liquidityRun degenbot span run with
    | ok written => exact ⟨h.lp, h.run hplace hw⟩
    | error _ =>
      refine ⟨h.lp, ?_⟩
      simp only [World.replays, hw, List.append_nil]
      exact h.snapshot

/-- The induction is on the schedule, whatever the ledgers hold already. -/
theorem after (hplace : degenbot.inPlace = true) (steps : List (Step chain)) :
    ∀ {world : World chain} {ledger : Address → List ExternalUpdate}, Kept world ledger →
      Kept (world.after degenbot span steps) fun pool =>
        ledger pool ++ world.replayed degenbot span steps pool := by
  induction steps with
  | nil =>
    intro world ledger h
    simp only [World.replayed, List.append_nil]
    exact h
  | cons step rest ih =>
    intro world ledger h
    have hstep : Kept (world.step degenbot span step) _ := h.step hplace step
    have hrest := ih hstep
    simp only [List.append_assoc] at hrest
    exact hrest

end Kept

/-! ### The maps of every pool -/

/-- The events of a pool end on multiples of its spacing. -/
def Chain.OnSpacing (chain : Chain) (pool : Address) : Prop :=
  ∀ e ∈ chain.history, e.address = pool →
    (chain.tickSpacing pool : Int) ∣ e.tickLower ∧ (chain.tickSpacing pool : Int) ∣ e.tickUpper

/-- The maps are those of a replay, hold at each tick the liquidity that was put there
and keep no tick without any; their bits are those of their ticks. -/
structure WellFormed (chain : Chain) (degenbot : Degenbot) (pool : Address)
    (updates : List ExternalUpdate) (maps : TickMaps) : Prop where
  replay : Agrees maps
    (replay degenbot (freshHelper (chain.fee pool) (chain.tickSpacing pool)) updates).maps
  gross : ∀ tick, (maps.atTick tick).liquidityGross = Span.held (spans updates) tick
  ticks : ∀ tick, tick ∈ maps.ticks ↔ Span.held (spans updates) tick ≠ 0
  bits : chain.OnSpacing pool → ∀ w bit, (maps.word w).testBit bit = true ↔
    ∃ tick ∈ maps.ticks, slot (chain.tickSpacing pool) tick = (w, bit)

theorem Reflects.wellFormed {pool : Address} {maps : TickMaps} {updates : List ExternalUpdate}
    (h : Reflects (chain.tickSpacing pool) maps updates)
    (hreal : ∀ update ∈ updates, ∃ e ∈ chain.history, e.address = pool ∧ update = e.update) :
    WellFormed chain degenbot pool updates maps := by
  refine ⟨h.agrees (Reflects.fromScratch _ _ _), h.gross_eq, fun _ => h.mem_ticks, fun hspacing => ?_⟩
  apply h.testBit_iff
  intro update hu
  obtain ⟨e, he, ha, rfl⟩ := hreal update hu
  exact hspacing e he ha

/-- After any schedule the snapshot's maps of every pool, also of one that a run has
passed over, are well formed, and hold the events of the runs that wrote a snapshot
while the pool was listed and no others. -/
theorem snapshot_well_formed (chain : Chain) (degenbot : Degenbot) (span : SpanRule)
    (hplace : degenbot.inPlace = true) (steps : List (Step chain)) :
    ∃ snapshot, (∀ newestBlock,
      (∀ block, savedBlock (World.start.after degenbot span steps).snapshotFile = some block →
        block < newestBlock) →
      loadSnapshot (World.start.after degenbot span steps).snapshotFile newestBlock =
        .ok (savedBlock (World.start.after degenbot span steps).snapshotFile, snapshot)) ∧
      ∀ pool, WellFormed chain degenbot pool (World.start.replayed degenbot span steps pool)
        ((snapshot.get? pool).getD TickMaps.empty) := by
  have hkept : Kept (World.start.after degenbot span steps) _ := Kept.start.after hplace steps
  obtain ⟨snapshot, hload, hholds⟩ := hkept.snapshot
  refine ⟨snapshot, hload, fun pool => (hholds pool).wellFormed fun update hu => ?_⟩
  exact World.exists_of_mem_replayed steps hu

/-- Pool 2 has a Mint before it is listed, and one after that. -/
def mintsOfPool2 : List LiquidityEvent :=
  [⟨.mint, Address.fill 2, 1600, 0, 0, 7, 0, 10, zero_lt_ten⟩,
    ⟨.mint, Address.fill 2, 2700, 0, 0, 5, 0, 10, zero_lt_ten⟩]

def mintedTwice : Chain := {twoPoolChain (Address.fill 2) with
  history := mintsOfPool2
  ordered := by
    unfold ChainOrdered
    decide
  logs name := .ofHistory (mintsOfPool2.filter fun e => decide (e.event = name))
    (by cases name <;> decide)
  logs_history _ := rfl}

/-- The liquidity fetcher at 2000 and 3000; pool 2 is listed in between. -/
def aroundListing : List (Step mintedTwice) :=
  [.lpFetcher (Fin.last 0) ⟨1200, none, none⟩, .liquidityFetcher ⟨2000, fun _ => [true]⟩,
    .lpFetcher (Fin.last 0) ⟨2500, none, none⟩, .liquidityFetcher lateRun]

theorem passedOver_aroundListing :
    World.start.PassedOver (tickAccounting true) exactSpan aroundListing (Address.fill 2) := by
  refine .inr (.inl ⟨_, rfl, ⟨_, rfl⟩, fun hlists => ?_, _, List.mem_cons_self .., rfl, by decide⟩)
  obtain ⟨i, content, hfile, lp, hlp, haddress⟩ := hlists
  obtain rfl : i = (0 : Fin 1) := Fin.eq_zero i
  cases hfile
  cases List.mem_singleton.mp hlp
  cases haddress

/-- What the second Mint alone leaves. -/
def secondMintMaps : TickMaps :=
  (replay (tickAccounting true) (freshHelper 500 10)
    [LiquidityEvent.update ⟨.mint, Address.fill 2, 2700, 0, 0, 5, 0, 10, zero_lt_ten⟩]).maps

/-- Among them is pool 2, of which the run at 2000 has passed over the first Mint. -/
theorem snapshot_well_formed_late : ∃ snapshot,
    loadSnapshot (World.start.after (tickAccounting true) exactSpan aroundListing).snapshotFile 3001 =
        .ok (some 3000, snapshot) ∧
      World.start.PassedOver (tickAccounting true) exactSpan aroundListing (Address.fill 2) ∧
      WellFormed mintedTwice (tickAccounting true) (Address.fill 2)
        (World.start.replayed (tickAccounting true) exactSpan aroundListing (Address.fill 2))
        ((snapshot.get? (Address.fill 2)).getD TickMaps.empty) ∧
      ((snapshot.get? (Address.fill 2)).getD TickMaps.empty).atTick 0 = ⟨5, 5⟩ := by
  obtain ⟨snapshot, hload, hpools⟩ := snapshot_well_formed mintedTwice (tickAccounting true) exactSpan
    rfl aroundListing
  have hsaved : (World.start.after (tickAccounting true) exactSpan aroundListing).snapshotFile =
      some (saveSnapshot (.ofList [(Address.fill 2, secondMintMaps)]) 3000) := rfl
  have hloaded := hload 3001 fun block hb => (by cases hb; decide)
  refine ⟨snapshot, hloaded, passedOver_aroundListing, hpools _, ?_⟩
  rw [hsaved, loadSnapshot_saveSnapshot _ (by decide)] at hloaded
  cases hloaded
  decide

/-! ### The liquidity in force -/

/-- What the events of a pool before a block put on ranges of ticks. -/
def Chain.positions (chain : Chain) (pool : Address) (hi : Nat) : List (Span Int Int) :=
  spans (chainUpdates pool (chain.between uniswapV3StartBlock hi))

/-- Added up from below the net liquidity gives every tick the liquidity of the positions
around it; all of it adds up to zero, and the ticks are the ends of the ranges that
have liquidity. -/
structure InForce (positions : List (Span Int Int)) (maps : TickMaps) : Prop where
  level : ∀ tick, ∑ t ∈ maps.ticks with t ≤ tick, (maps.atTick t).liquidityNet =
    Span.level positions tick
  nonneg : ∀ tick, 0 ≤ ∑ t ∈ maps.ticks with t ≤ tick, (maps.atTick t).liquidityNet
  closed : ∑ t ∈ maps.ticks, (maps.atTick t).liquidityNet = 0
  ends : ∀ tick, tick ∈ maps.ticks ↔
    ∃ lo hi, (tick = lo ∨ tick = hi) ∧ 0 < Span.total positions lo hi

theorem Reflects.inForce {tickSpacing : Nat} {maps : TickMaps} {updates : List ExternalUpdate}
    (h : Reflects tickSpacing maps updates) (hshort : NeverShort updates) :
    InForce (spans updates) maps := by
  have hbacked := hshort updates (List.prefix_refl _)
  refine ⟨h.sum_net hshort, fun tick => ?_, h.sum_net_all hshort, fun tick => ?_⟩
  · rw [h.sum_net hshort]
    exact hbacked.level_nonneg tick
  · rw [h.mem_ticks, ne_eq, hbacked.held_eq_zero_iff]
    refine ⟨fun hsome => ?_, fun ⟨lo, hi, hend, hpos⟩ hnone => ?_⟩
    · by_contra hnone
      refine hsome fun lo hi hend => ?_
      by_contra hne
      exact hnone ⟨lo, hi, hend, lt_of_le_of_ne (hbacked lo hi) (Ne.symm hne)⟩
    · exact hpos.ne' (hnone lo hi hend)

/-- After any schedule the snapshot's maps of a pool that no run has passed over give
every tick the liquidity that the pool's Mint and Burn events up to the saved block
leave in force there, if no range was ever short. -/
theorem snapshot_in_force (chain : Chain) (degenbot : Degenbot) (span : SpanRule)
    (hplace : degenbot.inPlace = true) (steps : List (Step chain)) :
    ∃ snapshot, (∀ newestBlock,
      (∀ block, savedBlock (World.start.after degenbot span steps).snapshotFile = some block →
        block < newestBlock) →
      loadSnapshot (World.start.after degenbot span steps).snapshotFile newestBlock =
        .ok (savedBlock (World.start.after degenbot span steps).snapshotFile, snapshot)) ∧
      ∀ pool, ¬World.start.PassedOver degenbot span steps pool →
        NeverShort (chainUpdates pool (chain.between uniswapV3StartBlock
          (World.start.after degenbot span steps).nextBlock)) →
        InForce (chain.positions pool (World.start.after degenbot span steps).nextBlock)
          ((snapshot.get? pool).getD TickMaps.empty) := by
  have hright : Right (World.start.after degenbot span steps) _ := right_start.after hplace steps
  obtain ⟨snapshot, hload, hpools⟩ := hright.snapshot
  refine ⟨snapshot, hload, fun pool hpassed hshort => ?_⟩
  have hentry := hpools pool fun hp => by
    rcases hp with hp | hp
    · exact hp
    · exact hpassed hp
  have hclean : EmptiesClean degenbot (freshHelper (chain.fee pool) (chain.tickSpacing pool)) _ :=
    hshort.emptiesClean
  have hchain := hentry.chain_order (chain.between_ordered ..) hshort.neverNegative hclean
  exact hchain.inForce hshort

/-- The Mint of pool 1 puts 7 in force from tick 0 to tick 10. -/
theorem snapshot_in_force_in_time : ∃ snapshot,
    loadSnapshot (lateWorld (Address.fill 1)).snapshotFile 2001 = .ok (some 2000, snapshot) ∧
      InForce ((twoPoolChain (Address.fill 1)).positions (Address.fill 1) 2001)
        ((snapshot.get? (Address.fill 1)).getD TickMaps.empty) ∧
      Span.level ((twoPoolChain (Address.fill 1)).positions (Address.fill 1) 2001) 5 = 7 := by
  obtain ⟨snapshot, hload, hpools⟩ := snapshot_in_force _ (tickAccounting true) exactSpan rfl
    (lateSteps (Address.fill 1))
  refine ⟨snapshot, hload 2001 fun block hb => (by cases hb; decide), ?_, by decide⟩
  apply hpools
  · intro hpassed
    rcases hpassed with ⟨_, hstep, _⟩ | ⟨_, _, _, hnot, _⟩ | ⟨_, hstep, _⟩ | hnil
    · cases hstep
    · exact hnot ⟨(0 : Fin 1), _, rfl, _, List.mem_cons_self .., rfl⟩
    · cases hstep
    · exact hnil
  · apply NeverShort.of_gains
    decide

end Schedule
end CreamBots.Builders.Liquidity
