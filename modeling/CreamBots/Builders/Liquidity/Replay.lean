import CreamBots.Builders.Liquidity.Ticks
import CreamBots.Data.EventLog
import Mathlib.Data.Prod.Lex

/-! The order in which the liquidity fetcher replays a pool's events.

The fetcher asks for all Mint logs of a range of blocks and then for all Burn
logs, drops the ones without liquidity and keeps of each its block and its
transaction index, by which it sorts a pool's events before it replays them. So
inside a transaction the mints come before the burns, whatever the chain did.

No gross liquidity is below what it was at some point of the chain
(`prefix_dominated`), so none becomes negative. The end is the chain's unless the
chain removed a tick that still had net liquidity: what such a tick forgets
depends on when it is removed (`replay_order_matters`). -/
namespace CreamBots.Builders.Liquidity
open Data

/-! ### Events and the queue -/

inductive EventName where
  | mint
  | burn
deriving DecidableEq

/-- A decoded Mint or Burn log. -/
structure LiquidityEvent where
  event : EventName
  address : Address
  blockNumber : Nat
  transactionIndex : Nat
  logIndex : Nat
  amount : Nat
  tickLower : Int
  tickUpper : Int
  lower_lt_upper : tickLower < tickUpper

namespace LiquidityEvent

def liquidity (e : LiquidityEvent) : Int := e.amount * (if e.event = .burn then -1 else 1)

def change (e : LiquidityEvent) : LiquidityChange :=
  ⟨e.liquidity, e.tickLower, e.tickUpper, e.lower_lt_upper⟩

/-- The update the event stands for. -/
def update (e : LiquidityEvent) : ExternalUpdate := ⟨e.blockNumber, e.change⟩

end LiquidityEvent

/-- An entry of `liquidity_events`: block, transaction index and change. -/
structure QueuedEvent where
  block : Nat
  txIndex : Nat
  change : LiquidityChange

namespace QueuedEvent

def update (q : QueuedEvent) : ExternalUpdate := ⟨q.block, q.change⟩

/-- `key=lambda event: (event[0], event[1])`. -/
def key (q : QueuedEvent) : Nat ×ₗ Nat := toLex (q.block, q.txIndex)

end QueuedEvent

/-- `liquidity_events`. -/
abbrev EventQueue := Dict Address (List QueuedEvent)

/-- One round of the loop over the decoded logs. -/
def enqueue (queue : EventQueue) (e : LiquidityEvent) : EventQueue :=
  if e.liquidity = 0 then queue
  else queue.set e.address
    ((queue.get? e.address).getD [] ++ [⟨e.blockNumber, e.transactionIndex, e.change⟩])

/-- All Mint logs of the range, then all its Burn logs. -/
def collect (mints burns : List LiquidityEvent) : EventQueue :=
  burns.foldl enqueue (mints.foldl enqueue Dict.empty)

/-- `sorted_liquidity_events`, as the updates made of them. -/
def sortedUpdates (queue : List QueuedEvent) : List ExternalUpdate :=
  (sortBy QueuedEvent.key queue).map QueuedEvent.update

/-! ### What the queue holds -/

/-- What an event adds to the queue of a pool. -/
def LiquidityEvent.queued? (pool : Address) (e : LiquidityEvent) : Option QueuedEvent :=
  if e.address = pool ∧ e.liquidity ≠ 0 then
    some ⟨e.blockNumber, e.transactionIndex, e.change⟩
  else none

theorem getD_enqueue (queue : EventQueue) (e : LiquidityEvent) (pool : Address) :
    ((enqueue queue e).get? pool).getD [] =
      (queue.get? pool).getD [] ++ (e.queued? pool).toList := by
  rw [enqueue, LiquidityEvent.queued?]
  by_cases h0 : e.liquidity = 0
  · simp [h0]
  · rw [if_neg h0, Dict.get?_set]
    by_cases hp : e.address = pool
    · subst hp
      simp [h0]
    · simp [hp, Ne.symm hp]

theorem getD_foldl_enqueue (events : List LiquidityEvent) (queue : EventQueue) (pool : Address) :
    ((events.foldl enqueue queue).get? pool).getD [] =
      (queue.get? pool).getD [] ++ events.filterMap (LiquidityEvent.queued? pool) := by
  induction events generalizing queue with
  | nil => simp
  | cons e rest ih =>
    rw [List.foldl_cons, ih, getD_enqueue, List.filterMap_cons]
    cases e.queued? pool <;> simp

theorem getD_collect (mints burns : List LiquidityEvent) (pool : Address) :
    ((collect mints burns).get? pool).getD [] =
      mints.filterMap (LiquidityEvent.queued? pool) ++
        burns.filterMap (LiquidityEvent.queued? pool) := by
  rw [collect, getD_foldl_enqueue, getD_foldl_enqueue]
  rfl

/-- A pool is queued for an event with liquidity. -/
theorem mem_keys_foldl_enqueue {events : List LiquidityEvent} {pool : Address} :
    ∀ {queue : EventQueue}, pool ∈ (events.foldl enqueue queue).keys →
      pool ∈ queue.keys ∨ ∃ e ∈ events, e.address = pool ∧ e.liquidity ≠ 0 := by
  induction events with
  | nil => exact fun h => .inl h
  | cons e rest ih =>
    intro queue h
    rcases ih h with hq | ⟨e', he', hpool⟩
    · by_cases h0 : e.liquidity = 0
      · rw [enqueue, if_pos h0] at hq
        exact .inl hq
      · rw [enqueue, if_neg h0, Dict.mem_keys, Dict.get?_set] at hq
        by_cases ha : pool = e.address
        · exact .inr ⟨e, List.mem_cons_self .., ha.symm, h0⟩
        · rw [if_neg ha, ← Dict.mem_keys] at hq
          exact .inl hq
    · exact .inr ⟨e', List.mem_cons_of_mem e he', hpool⟩

theorem mem_keys_collect {mints burns : List LiquidityEvent} {pool : Address}
    (h : pool ∈ (collect mints burns).keys) :
    ∃ e ∈ mints ++ burns, e.address = pool ∧ e.liquidity ≠ 0 := by
  rcases mem_keys_foldl_enqueue h with hmints | ⟨e, he, hpool⟩
  · rcases mem_keys_foldl_enqueue hmints with hnone | ⟨e, he, hpool⟩
    · cases hnone
    · exact ⟨e, List.mem_append_left _ he, hpool⟩
  · exact ⟨e, List.mem_append_right _ he, hpool⟩

/-! ### The replay against the chain -/

/-- Chain order: block, transaction index, log index. -/
def LiquidityEvent.chainKey (e : LiquidityEvent) : Nat ×ₗ Nat ×ₗ Nat :=
  toLex (e.blockNumber, toLex (e.transactionIndex, e.logIndex))

def ChainOrdered (events : List LiquidityEvent) : Prop :=
  events.Pairwise fun e e' => e.chainKey ≤ e'.chainKey

/-- What the chain does to a pool. -/
def chainUpdates (pool : Address) (events : List LiquidityEvent) : List ExternalUpdate :=
  (events.filter fun e => decide (e.address = pool)).map LiquidityEvent.update

def mints (events : List LiquidityEvent) : List LiquidityEvent :=
  events.filter fun e => decide (e.event = .mint)

def burns (events : List LiquidityEvent) : List LiquidityEvent :=
  events.filter fun e => decide (e.event = .burn)

/-- What the fetcher replays for a pool. -/
def fetchUpdates (pool : Address) (events : List LiquidityEvent) : List ExternalUpdate :=
  sortedUpdates (((collect (mints events) (burns events)).get? pool).getD [])

section Order
variable (pool : Address) (events : List LiquidityEvent)

/-- The pool's events with liquidity, in the order of the chain. -/
def queuedInOrder : List QueuedEvent := events.filterMap (LiquidityEvent.queued? pool)

def QueuedEvent.gain (q : QueuedEvent) : Bool := decide (0 ≤ q.change.amount)

theorem queued?_eq_some {e : LiquidityEvent} {q : QueuedEvent}
    (h : e.queued? pool = some q) : e.address = pool ∧ e.liquidity ≠ 0 ∧ q.update = e.update ∧
      q.key = toLex (e.blockNumber, e.transactionIndex) := by
  rw [LiquidityEvent.queued?] at h
  split at h
  · rename_i hc
    cases h
    exact ⟨hc.1, hc.2, rfl, rfl⟩
  · cases h

theorem gain_eq {e : LiquidityEvent} {q : QueuedEvent} (h : e.queued? pool = some q) :
    q.gain = decide (e.event = .mint) := by
  obtain ⟨_, hne, hu, _⟩ := queued?_eq_some pool h
  have hamount : q.change.amount = e.liquidity := congrArg (·.liquidityChange.amount) hu
  rw [QueuedEvent.gain, hamount, decide_eq_decide]
  unfold LiquidityEvent.liquidity at hne ⊢
  cases e.event <;> simp at hne ⊢
  omega

theorem queued_mints : (mints events).filterMap (LiquidityEvent.queued? pool) =
    (queuedInOrder pool events).filter QueuedEvent.gain := by
  rw [mints, queuedInOrder, List.filterMap_filter, List.filter_filterMap]
  apply List.filterMap_congr
  intro e _
  cases h : e.queued? pool with
  | none => simp
  | some q => rw [Option.filter_some, gain_eq pool h]

theorem queued_burns : (burns events).filterMap (LiquidityEvent.queued? pool) =
    (queuedInOrder pool events).filter fun q => !q.gain := by
  rw [burns, queuedInOrder, List.filterMap_filter, List.filter_filterMap]
  apply List.filterMap_congr
  intro e _
  cases h : e.queued? pool with
  | none => simp
  | some q =>
    rw [Option.filter_some, gain_eq pool h]
    cases e.event <;> rfl

/-- Mints are handed to the sort before burns: gains before losses. -/
theorem fetchUpdates_eq : fetchUpdates pool events =
    (sortBy QueuedEvent.key ((queuedInOrder pool events).filter QueuedEvent.gain ++
      (queuedInOrder pool events).filter fun q => !q.gain)).map QueuedEvent.update := by
  rw [fetchUpdates, sortedUpdates, getD_collect, queued_mints, queued_burns]

variable {pool events}

theorem queuedInOrder_ordered (h : ChainOrdered events) :
    (queuedInOrder pool events).Pairwise fun q q' => q.key ≤ q'.key := by
  rw [queuedInOrder, List.pairwise_filterMap]
  refine h.imp fun {e e'} hle q hq q' hq' => ?_
  obtain ⟨_, _, _, hk⟩ := queued?_eq_some pool hq
  obtain ⟨_, _, _, hk'⟩ := queued?_eq_some pool hq'
  rw [hk, hk']
  simp only [LiquidityEvent.chainKey, Prod.Lex.toLex_le_toLex] at hle ⊢
  rcases hle with hb | ⟨hb, ht⟩
  · exact .inl hb
  · refine .inr ⟨hb, ?_⟩
    rcases ht with ht | ht
    · exact ht.le
    · exact ht.1.le

/-! ### Shares of one tick -/

/-- An update moves its amount at a tick, net and gross, or nothing. -/
theorem share_cases (update : ExternalUpdate) (tick : Int) :
    update.share tick = ⟨update.liquidityChange.amount, update.liquidityChange.amount⟩ ∨
      update.share tick = ⟨-update.liquidityChange.amount, update.liquidityChange.amount⟩ ∨
      update.share tick = 0 := by
  rw [ExternalUpdate.share, LiquidityChange.posting]
  by_cases hl : tick = update.liquidityChange.tickLower
  · rw [if_pos hl]
    exact .inl rfl
  rw [if_neg hl]
  by_cases hu : tick = update.liquidityChange.tickUpper
  · rw [if_pos hu]
    exact .inr (.inl rfl)
  · rw [if_neg hu]
    exact .inr (.inr rfl)

/-- No gross, no net. -/
theorem share_eq_zero {update : ExternalUpdate} {tick : Int}
    (h : (update.share tick).liquidityGross = 0) : update.share tick = 0 := by
  rcases share_cases update tick with hs | hs | hs
  · rw [hs] at h ⊢
    exact LiquidityAtTick.ext h h
  · rw [hs] at h ⊢
    have hamount : update.liquidityChange.amount = 0 := h
    rw [hamount]
    rfl
  · exact hs

/-- An event without liquidity moves nothing. -/
theorem share_of_no_liquidity {e : LiquidityEvent} (h : e.liquidity = 0) (tick : Int) :
    e.update.share tick = 0 := by
  have hamount : e.update.liquidityChange.amount = 0 := h
  apply share_eq_zero
  rcases share_cases e.update tick with hs | hs | hs <;> rw [hs]
  · exact hamount
  · exact hamount
  · rfl

def moves (tick : Int) (q : QueuedEvent) : Int := (q.update.share tick).liquidityGross

theorem moves_cases (q : QueuedEvent) (tick : Int) :
    moves tick q = 0 ∨ moves tick q = q.change.amount := by
  rw [moves]
  rcases share_cases q.update tick with hs | hs | hs <;> rw [hs]
  · exact .inr rfl
  · exact .inr rfl
  · exact .inl rfl

theorem posted_gross (l : List QueuedEvent) (tick : Int) :
    (posted (l.map QueuedEvent.update) tick).liquidityGross = (l.map (moves tick)).sum := by
  rw [posted, LiquidityAtTick.sum_gross, List.map_map, List.map_map]
  rfl

/-- What is posted at a tick depends on the elements that moved there, not on their order. -/
theorem posted_eq_of_perm {l l' : List QueuedEvent} {tick : Int}
    (h : (l.filter fun q => decide (moves tick q ≠ 0)).Perm
      (l'.filter fun q => decide (moves tick q ≠ 0))) :
    posted (l.map QueuedEvent.update) tick = posted (l'.map QueuedEvent.update) tick := by
  have hfilter : ∀ l : List QueuedEvent, posted (l.map QueuedEvent.update) tick =
      posted ((l.filter fun q => decide (moves tick q ≠ 0)).map QueuedEvent.update) tick := by
    intro l
    induction l with
    | nil => rfl
    | cons q rest ih =>
      by_cases hq : moves tick q = 0
      · rw [List.filter_cons_of_neg (by simpa using hq), List.map_cons, posted_cons,
          share_eq_zero hq, zero_add, ih]
      · rw [List.filter_cons_of_pos (by simpa using hq), List.map_cons, List.map_cons, posted_cons,
          posted_cons, ih]
  rw [hfilter l, hfilter l', posted, posted]
  exact ((h.map _).map _).sum_eq

theorem posted_chainUpdates (l : List LiquidityEvent) (tick : Int) :
    posted (chainUpdates pool l) tick =
      posted ((queuedInOrder pool l).map QueuedEvent.update) tick := by
  induction l with
  | nil => rfl
  | cons e rest ih =>
    rw [chainUpdates, queuedInOrder] at ih ⊢
    by_cases ha : e.address = pool
    · rw [List.filter_cons_of_pos (by simpa using ha), List.map_cons, posted_cons, ih]
      by_cases h0 : e.liquidity = 0
      · -- Such an event is not queued either.
        rw [List.filterMap_cons_none (by simp [LiquidityEvent.queued?, h0]),
          share_of_no_liquidity h0, zero_add]
      · rw [List.filterMap_cons_some (b := ⟨e.blockNumber, e.transactionIndex, e.change⟩)
          (by simp [LiquidityEvent.queued?, ha, h0]), List.map_cons, posted_cons]
        rfl
    · rw [List.filter_cons_of_neg (by simpa using ha),
        List.filterMap_cons_none (by simp [LiquidityEvent.queued?, ha]), ih]

/-- A queued event that moves at a tick is a posting of the chain to it. -/
theorem postings_ne_nil {l : List LiquidityEvent} {q : QueuedEvent} {tick : Int}
    (hq : q ∈ queuedInOrder pool l) (hm : moves tick q ≠ 0) :
    postings (chainUpdates pool l) tick ≠ [] := by
  obtain ⟨e, he, hqe⟩ := List.mem_filterMap.mp hq
  obtain ⟨ha, _, hu, _⟩ := queued?_eq_some pool hqe
  have hmem : e.update ∈ chainUpdates pool l :=
    List.mem_map.mpr ⟨e, List.mem_filter.mpr ⟨he, decide_eq_true ha⟩, rfl⟩
  rw [moves, hu, ExternalUpdate.share] at hm
  cases hp : e.update.liquidityChange.posting tick with
  | none => exact absurd (by rw [hp]; rfl) hm
  | some x => exact List.ne_nil_of_mem (List.mem_filterMap.mpr ⟨e.update, hmem, hp⟩)

theorem amount_ne_zero {q : QueuedEvent} (hq : q ∈ queuedInOrder pool events) :
    q.change.amount ≠ 0 := by
  obtain ⟨e, _, hqe⟩ := List.mem_filterMap.mp hq
  obtain ⟨_, hne, hu, _⟩ := queued?_eq_some pool hqe
  have hamount : q.change.amount = e.liquidity := congrArg (·.liquidityChange.amount) hu
  rw [hamount]
  exact hne

/-- A queued event that posts to a tick moves there. -/
theorem exists_moves {s : List QueuedEvent} (hs : ∀ q ∈ s, q.change.amount ≠ 0) {tick : Int}
    (hne : postings (s.map QueuedEvent.update) tick ≠ []) : ∃ q ∈ s, moves tick q ≠ 0 := by
  obtain ⟨x, hx⟩ := List.exists_mem_of_ne_nil _ hne
  obtain ⟨update, hu, hpost⟩ := List.mem_filterMap.mp hx
  obtain ⟨q, hq, rfl⟩ := List.mem_map.mp hu
  refine ⟨q, hq, fun h0 => hs q hq ?_⟩
  rw [moves, ExternalUpdate.share, hpost, Option.getD_some] at h0
  rcases LiquidityChange.posting_eq_some hpost with ⟨_, rfl⟩ | ⟨_, rfl⟩
  · exact h0
  · exact h0

/-- Below every prefix of the replay there is one of the chain: it holds no more
gross liquidity at the tick, and if as much, the same, having touched the tick too. -/
theorem chain_below (h : ChainOrdered events) {p : List ExternalUpdate}
    (hp : p <+: fetchUpdates pool events) (tick : Int) :
    ∃ u, u <+: chainUpdates pool events ∧
      (posted u tick).liquidityGross ≤ (posted p tick).liquidityGross ∧
      ((posted u tick).liquidityGross = (posted p tick).liquidityGross →
        posted u tick = posted p tick ∧ (postings p tick ≠ [] → postings u tick ≠ [])) := by
  rw [fetchUpdates_eq] at hp
  obtain ⟨s, hs, rfl⟩ := List.prefix_map_iff.mp hp
  obtain ⟨c, hc, hle, hmoved⟩ := prefix_dominated (w := moves tick)
    (queuedInOrder_ordered h)
    (fun q _ hg => by
      have hpos : 0 ≤ q.change.amount := of_decide_eq_true hg
      rcases moves_cases q tick with hw | hw <;> omega)
    (fun q _ hg => by
      have hneg : ¬0 ≤ q.change.amount := of_decide_eq_false hg
      rcases moves_cases q tick with hw | hw <;> omega) hs
  obtain ⟨l, hl, rfl⟩ := List.prefix_filterMap_iff.mp hc
  refine ⟨chainUpdates pool l, (hl.filter _).map _, ?_⟩
  rw [posted_chainUpdates, posted_gross, posted_gross, queuedInOrder]
  refine ⟨hle, fun heq => ⟨posted_eq_of_perm (hmoved heq), fun hne => ?_⟩⟩
  have hqueued : ∀ q ∈ s, q ∈ queuedInOrder pool events := fun q hq =>
    (List.filter_append_perm _ _).subset ((sortBy_perm _ _).subset (hs.subset hq))
  obtain ⟨q, hq, hm⟩ := exists_moves (fun q hq => amount_ne_zero (hqueued q hq)) hne
  have hq' := (hmoved heq).mem_iff.mpr (List.mem_filter.mpr ⟨hq, decide_eq_true hm⟩)
  exact postings_ne_nil (List.mem_filter.mp hq').1 hm

/-- The replay posts at each tick what the chain does. -/
theorem posted_fetchUpdates (tick : Int) :
    posted (fetchUpdates pool events) tick = posted (chainUpdates pool events) tick := by
  rw [posted_chainUpdates, fetchUpdates_eq]
  apply posted_eq_of_perm
  exact ((sortBy_perm _ _).trans (List.filter_append_perm _ _)).filter _

/-! ### Safety of the order -/

variable {degenbot : Degenbot} {helper : Helper}

/-- The updates never empty a tick that has net liquidity left, tick by tick. -/
def ClosesClean (helper : Helper) (updates : List ExternalUpdate) : Prop :=
  ∀ tick, Account.ClosesClean LiquidityAtTick.Unreferenced (helper.tickData.get? tick)
    (postings updates tick)

theorem neverNegative_fetchUpdates (h : ChainOrdered events)
    (hnonneg : NeverNegative degenbot helper (chainUpdates pool events)) :
    NeverNegative degenbot helper (fetchUpdates pool events) := by
  intro p hp tick
  obtain ⟨u, hu, hle, _⟩ := chain_below h hp tick
  have hpos := hnonneg u hu tick
  rw [gross_replay] at hpos ⊢
  omega

/-- The replay forgets no net liquidity: where it brings a tick to 0 the chain has
brought it to the same balance. -/
theorem closesClean_fetchUpdates (h : ChainOrdered events)
    (hnonneg : NeverNegative degenbot helper (chainUpdates pool events))
    (hclean : ClosesClean helper (chainUpdates pool events)) :
    ClosesClean helper (fetchUpdates pool events) := by
  intro tick q hq hne hdead
  obtain ⟨p, hp, rfl⟩ := List.prefix_filterMap_iff.mp hq
  obtain ⟨u, hu, hle, heq⟩ := chain_below h hp tick
  have hpos := hnonneg u hu tick
  rw [gross_replay] at hpos
  have hsum : (helper.maps.atTick tick).liquidityGross + (posted p tick).liquidityGross = 0 := by
    rw [← sum_postings]
    exact hdead
  obtain ⟨hsame, htouched⟩ := heq (by omega)
  have hchain := hclean tick (postings u tick) (hu.filterMap _) (htouched hne)
  rw [sum_postings, hsame, ← sum_postings] at hchain
  exact hchain hdead

theorem atTick_fetchUpdates (h : ChainOrdered events)
    (hnonneg : NeverNegative degenbot helper (chainUpdates pool events))
    (hclean : ClosesClean helper (chainUpdates pool events)) (tick : Int) :
    (replay degenbot helper (fetchUpdates pool events)).maps.atTick tick =
      (replay degenbot helper (chainUpdates pool events)).maps.atTick tick := by
  rw [atTick_replay_eq (closesClean_fetchUpdates h hnonneg hclean tick),
    atTick_replay_eq (hclean tick), posted_fetchUpdates]

/-- Sorting by block first, the fetcher passes the blocks in order. -/
theorem fetchUpdates_ordered (pool : Address) (events : List LiquidityEvent) :
    (fetchUpdates pool events).Pairwise fun u u' => u.blockNumber ≤ u'.blockNumber := by
  rw [fetchUpdates, sortedUpdates, List.pairwise_map]
  refine (sortBy_sorted _ _).imp fun {q q'} hle => ?_
  rw [QueuedEvent.key, QueuedEvent.key, Prod.Lex.toLex_le_toLex] at hle
  rcases hle with hb | ⟨hb, _⟩
  · exact hb.le
  · exact hb.le

theorem exists_of_mem_queuedInOrder {q : QueuedEvent} (h : q ∈ queuedInOrder pool events) :
    ∃ e ∈ events, e.address = pool ∧ e.liquidity ≠ 0 ∧ q.update = e.update := by
  obtain ⟨e, he, hqe⟩ := List.mem_filterMap.mp h
  obtain ⟨ha, hne, hu, _⟩ := queued?_eq_some pool hqe
  exact ⟨e, he, ha, hne, hu⟩

variable (pool) in
/-- What is handed to the sort from blocks before `mid`, of events on both sides of it. -/
theorem filter_queuedInOrder {before after : List LiquidityEvent} {mid : Nat}
    (hbefore : ∀ e ∈ before, e.blockNumber < mid) (hafter : ∀ e ∈ after, mid ≤ e.blockNumber) :
    (queuedInOrder pool (before ++ after)).filter (fun q => decide (q.block < mid)) =
        queuedInOrder pool before ∧
      (queuedInOrder pool (before ++ after)).filter (fun q => !decide (q.block < mid)) =
        queuedInOrder pool after := by
  have hlow : ∀ q ∈ queuedInOrder pool before, q.block < mid := by
    intro q hq
    obtain ⟨e, he, _, _, hu⟩ := exists_of_mem_queuedInOrder hq
    have hb : q.block = e.blockNumber := congrArg ExternalUpdate.blockNumber hu
    rw [hb]
    exact hbefore e he
  have hhigh : ∀ q ∈ queuedInOrder pool after, ¬q.block < mid := by
    intro q hq
    obtain ⟨e, he, _, _, hu⟩ := exists_of_mem_queuedInOrder hq
    have hb : q.block = e.blockNumber := congrArg ExternalUpdate.blockNumber hu
    rw [hb]
    exact Nat.not_lt.mpr (hafter e he)
  have happend : queuedInOrder pool (before ++ after) =
      queuedInOrder pool before ++ queuedInOrder pool after := List.filterMap_append
  rw [happend, List.filter_append, List.filter_append]
  refine ⟨?_, ?_⟩
  · rw [List.filter_eq_self.mpr fun q hq => decide_eq_true (hlow q hq),
      List.filter_eq_nil_iff.mpr fun q hq => by simpa using hhigh q hq, List.append_nil]
  · rw [List.filter_eq_nil_iff.mpr fun q hq => by simpa using hlow q hq,
      List.filter_eq_self.mpr fun q hq => by simpa using hhigh q hq, List.nil_append]

/-- Ranges of blocks laid end to end are replayed one after the other. -/
theorem fetchUpdates_append {before after : List LiquidityEvent} {mid : Nat}
    (hbefore : ∀ e ∈ before, e.blockNumber < mid) (hafter : ∀ e ∈ after, mid ≤ e.blockNumber) :
    fetchUpdates pool (before ++ after) = fetchUpdates pool before ++ fetchUpdates pool after := by
  have hdown : ∀ q q' : QueuedEvent, q.key ≤ q'.key → decide (q'.block < mid) = true →
      decide (q.block < mid) = true := by
    intro q q' hle hq'
    rw [QueuedEvent.key, QueuedEvent.key, Prod.Lex.toLex_le_toLex] at hle
    have hlt := of_decide_eq_true hq'
    apply decide_eq_true
    rcases hle with hb | ⟨hb, _⟩
    · exact hb.trans hlt
    · exact hb.trans_lt hlt
  obtain ⟨hlow, hhigh⟩ := filter_queuedInOrder pool hbefore hafter
  have hcomm : ∀ (P R : QueuedEvent → Bool) (l : List QueuedEvent),
      (l.filter P).filter R = (l.filter R).filter P := fun P R l => List.filter_comm ..
  rw [fetchUpdates_eq, fetchUpdates_eq, fetchUpdates_eq, ← List.map_append, sortBy_split hdown,
    ← hlow, ← hhigh, List.filter_append, List.filter_append,
    hcomm QueuedEvent.gain fun q => decide (q.block < mid),
    hcomm QueuedEvent.gain fun q => !decide (q.block < mid),
    hcomm (fun q => !q.gain) fun q => decide (q.block < mid),
    hcomm (fun q => !q.gain) fun q => !decide (q.block < mid)]

/-- It replays the pool's own events. -/
theorem exists_of_mem_fetchUpdates {update : ExternalUpdate}
    (h : update ∈ fetchUpdates pool events) : ∃ e ∈ events, e.address = pool ∧ update = e.update := by
  rw [fetchUpdates_eq] at h
  obtain ⟨q, hq, rfl⟩ := List.mem_map.mp h
  have hq := (List.filter_append_perm _ _).subset ((sortBy_perm _ _).subset hq)
  obtain ⟨e, he, ha, _, hu⟩ := exists_of_mem_queuedInOrder hq
  exact ⟨e, he, ha, hu⟩

/-- Mints first inside each transaction, the replay of a pool's events never holds
a negative gross liquidity if the chain never did, passes their blocks in order
and ends with the chain's gross liquidity at every tick; with its net liquidity
too if the chain emptied no tick that had any. -/
theorem replay_order_safe (degenbot : Degenbot) (helper : Helper) (snapshotBlock : Nat)
    (pool : Address) (events : List LiquidityEvent) (horder : ChainOrdered events)
    (hafter : ∀ e ∈ events, snapshotBlock < e.blockNumber)
    (hnonneg : NeverNegative degenbot helper (chainUpdates pool events)) :
    NeverNegative degenbot helper (fetchUpdates pool events) ∧
      ((fetchUpdates pool events).Pairwise fun u u' => u.blockNumber ≤ u'.blockNumber) ∧
      (∀ update ∈ fetchUpdates pool events, snapshotBlock < update.blockNumber) ∧
      (∀ tick, ((replay degenbot helper (fetchUpdates pool events)).maps.atTick tick).liquidityGross =
        ((replay degenbot helper (chainUpdates pool events)).maps.atTick tick).liquidityGross) ∧
      (EmptiesClean degenbot helper (chainUpdates pool events) →
        ∀ tick, ((replay degenbot helper (fetchUpdates pool events)).maps.atTick tick).liquidityNet =
          ((replay degenbot helper (chainUpdates pool events)).maps.atTick tick).liquidityNet) := by
  refine ⟨neverNegative_fetchUpdates horder hnonneg, fetchUpdates_ordered pool events, ?_, ?_, ?_⟩
  · intro update hu
    obtain ⟨e, he, _, rfl⟩ := exists_of_mem_fetchUpdates hu
    exact hafter e he
  · intro tick
    rw [gross_replay, gross_replay, posted_fetchUpdates]
  · intro hclean tick
    rw [atTick_fetchUpdates horder hnonneg fun tick => hclean.closesClean tick]

end Order

/-! ### Why a tick has to be emptied clean -/

/-- A pool with liquidity 5 at ticks 0 and 10, of which `net` enters at 0. -/
def twoTicks (net : Int) : Helper where
  address := Address.fill 0
  liquidity := 2 ^ 256
  tickData := Dict.ofList [(0, ⟨net, 5⟩), (10, ⟨-5, 5⟩)]
  tickBitmap := Dict.ofList [(0, ⟨1025⟩)]
  updateBlock := 2000
  liquidityUpdateBlock := 2000
  tick := 0
  fee := 100
  tickSpacing := 1

theorem zero_lt_ten : (0 : Int) < 10 := by decide

/-- One transaction that burns all of it and mints as much. -/
def burnThenMint : List LiquidityEvent :=
  [⟨.burn, Address.fill 1, 2001, 0, 0, 5, 0, 10, zero_lt_ten⟩,
    ⟨.mint, Address.fill 1, 2001, 0, 1, 5, 0, 10, zero_lt_ten⟩]

theorem burnThenMint_ordered : ChainOrdered burnThenMint := by
  rw [ChainOrdered]
  decide

theorem burnThenMint_neverNegative (net : Int) : NeverNegative (tickAccounting true) (twoTicks net)
    (chainUpdates (Address.fill 1) burnThenMint) := by
  intro q hq tick
  rw [gross_replay]
  have hcases : q = [] ∨ q = [⟨2001, ⟨-5, 0, 10, by decide⟩⟩] ∨
      q = [⟨2001, ⟨-5, 0, 10, by decide⟩⟩, ⟨2001, ⟨5, 0, 10, by decide⟩⟩] := by
    have hinits := (List.mem_inits q (chainUpdates (Address.fill 1) burnThenMint)).mpr hq
    simpa [chainUpdates, burnThenMint, LiquidityEvent.update, LiquidityEvent.change,
      LiquidityEvent.liquidity] using hinits
  by_cases h0 : tick = 0
  · subst h0
    have hheld : ((twoTicks net).maps.atTick 0).liquidityGross = 5 := rfl
    rw [hheld]
    rcases hcases with rfl | rfl | rfl <;> decide
  by_cases h10 : tick = 10
  · subst h10
    have hheld : ((twoTicks net).maps.atTick 10).liquidityGross = 5 := rfl
    rw [hheld]
    rcases hcases with rfl | rfl | rfl <;> decide
  -- No other tick is there or touched.
  have hheld : (twoTicks net).maps.atTick tick = 0 := by
    simp [twoTicks, Helper.maps, TickMaps.atTick, Dict.get?_ofList, Dict.lastValue?, Ne.symm h0,
      Ne.symm h10]
  have hshare : ∀ amount : Int, ∀ h : (0 : Int) < 10,
      ExternalUpdate.share ⟨2001, ⟨amount, 0, 10, h⟩⟩ tick = 0 := by
    intro amount h
    rw [ExternalUpdate.share, LiquidityChange.posting, if_neg h0, if_neg h10]
    rfl
  have hposted : posted q tick = 0 := by
    rcases hcases with rfl | rfl | rfl
    · rfl
    · rw [posted_cons, hshare]
      rfl
    · rw [posted_cons, posted_cons, hshare, hshare]
      rfl
  rw [hheld, hposted]
  decide

/-- With net liquidity 1 at tick 0 the order tells: burnt first, the tick is removed
and forgets it; minted first, it is never empty. -/
theorem replay_order_matters : ¬∀ (degenbot : Degenbot) (helper : Helper) (snapshotBlock : Nat)
    (pool : Address) (events : List LiquidityEvent), ChainOrdered events →
    (∀ e ∈ events, snapshotBlock < e.blockNumber) →
    NeverNegative degenbot helper (chainUpdates pool events) →
    NeverNegative degenbot helper (fetchUpdates pool events) ∧
      ((fetchUpdates pool events).Pairwise fun u u' => u.blockNumber ≤ u'.blockNumber) ∧
      (∀ update ∈ fetchUpdates pool events, snapshotBlock < update.blockNumber) ∧
      ∀ tick, (replay degenbot helper (fetchUpdates pool events)).maps.atTick tick =
        (replay degenbot helper (chainUpdates pool events)).maps.atTick tick := by
  intro h
  have hlast := (h (tickAccounting true) (twoTicks 1) 2000 (Address.fill 1) burnThenMint
    burnThenMint_ordered (by decide) (burnThenMint_neverNegative 1)).2.2.2 0
  revert hlast
  decide

/-- With net liquidity 5 there the chain leaves nothing behind. -/
theorem replay_order_safe_burnThenMint :
    EmptiesClean (tickAccounting true) (twoTicks 5) (chainUpdates (Address.fill 1) burnThenMint) ∧
      ∀ tick, ((replay (tickAccounting true) (twoTicks 5)
          (fetchUpdates (Address.fill 1) burnThenMint)).maps.atTick tick).liquidityNet =
        ((replay (tickAccounting true) (twoTicks 5)
          (chainUpdates (Address.fill 1) burnThenMint)).maps.atTick tick).liquidityNet := by
  have hclean : EmptiesClean (tickAccounting true) (twoTicks 5)
      (chainUpdates (Address.fill 1) burnThenMint) := by
    intro q update hq tick x hx
    change q ++ [update] <+: [⟨2001, ⟨-5, 0, 10, by decide⟩⟩] ++ [⟨2001, ⟨5, 0, 10, by decide⟩⟩]
      at hq
    have hposted := LiquidityChange.posting_eq_some hx
    rcases List.prefix_concat_iff.mp hq with heq | hq
    · obtain ⟨rfl, hu⟩ := List.append_inj' heq rfl
      cases hu
      rcases hposted with ⟨rfl, rfl⟩ | ⟨rfl, rfl⟩ <;> decide
    change q ++ [update] <+: [] ++ [⟨2001, ⟨-5, 0, 10, by decide⟩⟩] at hq
    rcases List.prefix_concat_iff.mp hq with heq | hq
    · obtain ⟨rfl, hu⟩ := List.append_inj' heq rfl
      cases hu
      rcases hposted with ⟨rfl, rfl⟩ | ⟨rfl, rfl⟩ <;> decide
    · exact absurd (List.prefix_nil.mp hq) (by simp)
  exact ⟨hclean, (replay_order_safe (tickAccounting true) (twoTicks 5) 2000 (Address.fill 1)
    burnThenMint burnThenMint_ordered (by decide) (burnThenMint_neverNegative 5)).2.2.2.2 hclean⟩

end CreamBots.Builders.Liquidity
