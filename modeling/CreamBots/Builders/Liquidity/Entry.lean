import CreamBots.Builders.Liquidity.Sharing

/-! What a round leaves in the entry of its pool.

`dict.update` overwrites keys and adds them but takes none away. If `external_update`
works in place the entry's dictionaries are the helper's and there is nothing to take
away; if it puts copies in their place, a tick that the pool's events have emptied stays
in the entry. So the entry is the helper's final state exactly if `external_update` works
in place, the pool had no entry, or none of its entry's ticks is emptied
(`entry_final_iff`). -/
namespace CreamBots.Builders.Liquidity
open Data

/-- `external_update` flips bits in the words of the bitmap and drops no word. -/
def Degenbot.KeepsWords (degenbot : Degenbot) : Prop :=
  ∀ helper update, ∀ w ∈ helper.tickBitmap.keys,
    w ∈ (degenbot.externalUpdate helper update).tickBitmap.keys

/-- The updates refer to a tick of the entry and leave no gross liquidity there. -/
structure Empties (entry : TickMaps) (updates : List ExternalUpdate) (tick : Int) : Prop where
  held : tick ∈ entry.tickData.keys
  referred : ∃ update ∈ updates, tick = update.liquidityChange.tickLower ∨
    tick = update.liquidityChange.tickUpper
  gross : (entry.atTick tick).liquidityGross + (posted updates tick).liquidityGross = 0

section Entry
variable {degenbot : Degenbot}

theorem postings_ne_nil_iff {updates : List ExternalUpdate} {tick : Int} :
    postings updates tick ≠ [] ↔ ∃ update ∈ updates, tick = update.liquidityChange.tickLower ∨
      tick = update.liquidityChange.tickUpper := by
  rw [← not_iff_not, not_ne_iff, postings, List.filterMap_eq_nil_iff]
  simp only [not_exists, not_and, not_or, LiquidityChange.posting]
  refine forall₂_congr fun update _ => ?_
  by_cases hl : tick = update.liquidityChange.tickLower
  · simp [hl]
  · rw [if_neg hl]
    by_cases hu : tick = update.liquidityChange.tickUpper
    · simp [hu]
    · simp [hl, hu]

/-- A tick that updates refer to is gone after them if it has no gross liquidity. -/
theorem get?_replay_eq_none {helper : Helper} {updates : List ExternalUpdate} {tick : Int}
    (h : postings updates tick ≠ []) :
    (replay degenbot helper updates).tickData.get? tick = none ↔
      (helper.maps.atTick tick).liquidityGross + (posted updates tick).liquidityGross = 0 := by
  have hgross : ((replay degenbot helper updates).maps.atTick tick).liquidityGross =
      (helper.maps.atTick tick).liquidityGross + (posted updates tick).liquidityGross :=
    gross_replay helper updates tick
  rw [← hgross]
  have hlive : Account.Live LiquidityAtTick.Unreferenced
      ((replay degenbot helper updates).tickData.get? tick) := by
    rw [get?_replay]
    obtain ⟨before, last, hlast⟩ := (List.eq_nil_or_concat' _).resolve_left h
    rw [hlast, Account.postAll_append]
    exact Account.live_post _ last
  show _ ↔ (((replay degenbot helper updates).tickData.get? tick).getD 0).liquidityGross = 0
  cases hget : (replay degenbot helper updates).tickData.get? tick with
  | none => simp
  | some held => exact iff_of_false nofun (hlive held hget)

/-- The ticks of an entry that are gone from the helper are those that were emptied. -/
theorem gone_iff_empties {helper : Helper} {updates : List ExternalUpdate} {tick : Int} :
    (tick ∈ helper.maps.tickData.keys ∧ (replay degenbot helper updates).tickData.get? tick = none) ↔
      Empties helper.maps updates tick := by
  by_cases hreferred : postings updates tick = []
  · have hkept : (replay degenbot helper updates).tickData.get? tick = helper.tickData.get? tick := by
      rw [get?_replay, hreferred, Account.postAll_nil]
    refine ⟨fun ⟨hheld, hgone⟩ => ?_, fun h => ?_⟩
    · rw [hkept] at hgone
      exact absurd hheld (Dict.get?_eq_none.mp hgone)
    · exact absurd hreferred (postings_ne_nil_iff.mpr h.referred)
  · rw [get?_replay_eq_none hreferred]
    exact ⟨fun ⟨hheld, hgross⟩ => ⟨hheld, postings_ne_nil_iff.mp hreferred, hgross⟩,
      fun h => ⟨h.held, h.gross⟩⟩

theorem Degenbot.KeepsWords.replay (h : degenbot.KeepsWords) {w : Int} (updates : List ExternalUpdate) :
    ∀ {helper : Helper}, w ∈ helper.tickBitmap.keys →
      w ∈ (replay degenbot helper updates).tickBitmap.keys := by
  induction updates with
  | nil => exact id
  | cons update rest ih => exact fun hw => ih (h _ update w hw)

/-- Updating leaves what is not among the new keys. -/
theorem update_same_iff {held maps : TickMaps} :
    (held.update maps).Same maps ↔
      (∀ tick ∈ held.tickData.keys, maps.tickData.get? tick ≠ none) ∧
        ∀ w ∈ held.tickBitmap.keys, maps.tickBitmap.get? w ≠ none := by
  have hkeys : ∀ {α : Type} {d e : Dict Int α},
      (∀ k, (d.update e).get? k = e.get? k) ↔ ∀ k ∈ d.keys, e.get? k ≠ none := by
    intro α d e
    refine forall_congr' fun k => ?_
    rw [Dict.get?_update, Dict.mem_keys]
    cases he : e.get? k <;> cases hd : d.get? k <;> simp
  refine ⟨fun h => ⟨hkeys.mp h.tickData, hkeys.mp h.tickBitmap⟩,
    fun ⟨hdata, hbitmap⟩ => ⟨hkeys.mpr hdata, hkeys.mpr hbitmap⟩⟩

/-- The merged entry is the helper's final state unless copies were emptied. -/
theorem merge_same_iff (hwords : degenbot.KeepsWords) (entry : Option TickMaps) {helper : Helper}
    (hmaps : helper.maps = entry.getD TickMaps.empty) (updates : List ExternalUpdate) :
    (merge degenbot entry (replay degenbot helper updates)).Same (replay degenbot helper updates).maps ↔
      degenbot.inPlace = true ∨
        ∀ maps, entry = some maps → ∀ tick, ¬Empties maps updates tick := by
  cases entry with
  | none =>
    refine ⟨fun _ => .inr nofun, fun _ => ?_⟩
    rw [merge_eq, update_same_iff]
    exact ⟨nofun, nofun⟩
  | some maps =>
    rw [merge_eq]
    cases hplace : degenbot.inPlace with
    | true => exact ⟨fun _ => .inl rfl, fun _ => TickMaps.update_self _⟩
    | false =>
      obtain rfl : helper.maps = maps := hmaps
      show (helper.maps.update _).Same _ ↔ _
      rw [update_same_iff]
      refine ⟨fun ⟨hdata, _⟩ => .inr fun maps hentry tick hempties => ?_, fun h => ⟨?_, ?_⟩⟩
      · rw [← Option.some.inj hentry] at hempties
        obtain ⟨hheld, hgone⟩ := gone_iff_empties.mpr hempties
        exact hdata tick hheld hgone
      · intro tick hheld hgone
        exact h.resolve_left (by decide) _ rfl tick (gone_iff_empties.mp ⟨hheld, hgone⟩)
      · intro w hw
        rw [ne_eq, Dict.get?_eq_none, not_not]
        exact hwords.replay updates hw

theorem replayObjects_ok {lpData : Dict Address PoolRecord} {last : Option Nat} {queue : EventQueue}
    {s s' : LoopState} {pool : Address} {lp : PoolRecord} (hlp : lpData.get? pool = some lp)
    (h : replayObjects degenbot lpData last queue s pool = .ok s') :
    ∃ fee tickSpacing, lp.fee = some fee ∧ tickSpacingByFee.get? fee = some tickSpacing := by
  simp only [replayObjects, hlp] at h
  cases hfee : lp.fee with
  | none =>
    rw [hfee] at h
    cases h
  | some fee =>
    cases hspacing : tickSpacingByFee.get? fee with
    | none =>
      simp only [hfee, hspacing] at h
      cases h
    | some tickSpacing => exact ⟨fee, tickSpacing, rfl, hspacing⟩

/-- **The entry of a pool is the helper's final state, key for key, exactly if
`external_update` works in place, the pool had no entry, or its events empty none of the
entry's ticks.** No other entry changes in the round of the pool, and no later round
changes the pool's. -/
theorem entry_final_iff (degenbot : Degenbot) (hwords : degenbot.KeepsWords)
    (lpData : Dict Address PoolRecord) (last : Option Nat) (queue : EventQueue) (lpHelper : Helper)
    (snapshot : Snapshot) (before after : List Address) (pool : Address)
    (hkeys : queue.keys = before ++ pool :: after) (lp : PoolRecord)
    (hlp : lpData.get? pool = some lp) (s s' final : LoopState)
    (hbefore : before.foldlM (replayObjects degenbot lpData last queue)
      (LoopState.start lpHelper snapshot) = .ok s)
    (hround : replayObjects degenbot lpData last queue s pool = .ok s')
    (hafter : after.foldlM (replayObjects degenbot lpData last queue) s' = .ok final) :
    ((∃ maps, s'.snapshot.get? pool = some maps ∧ maps.Same s'.helper.maps ∧
          final.snapshot.get? pool = some maps) ∧
        ∀ other, other ≠ pool → s'.snapshot.get? other = s.snapshot.get? other) ↔
      degenbot.inPlace = true ∨ ∀ maps, snapshot.get? pool = some maps →
        ∀ tick, ¬Empties maps (sortedUpdates ((queue.get? pool).getD [])) tick := by
  obtain ⟨hstart, hsnapshot⟩ := LoopState.start_separated lpHelper snapshot
  obtain ⟨hbeforeView, hs⟩ := foldlM_replayObjects_view degenbot lpData last queue before hstart
  have hs := hs s hbefore
  obtain ⟨fee, tickSpacing, hfee, hspacing⟩ := replayObjects_ok hlp hround
  obtain ⟨s₁, hs₁, hmerged⟩ := replayObjects_listed degenbot last queue hs hlp hfee hspacing
  rw [hround] at hs₁
  obtain rfl := Except.ok.inj hs₁
  have hnodup := queue.nodup_keys
  rw [hkeys, List.nodup_append] at hnodup
  have hnotBefore : pool ∉ before := fun hm => hnodup.2.2 pool hm pool (List.mem_cons_self ..) rfl
  have hnotAfter : pool ∉ after := (List.nodup_cons.mp hnodup.2.1).1
  -- The pool's entry is what was loaded until its round, and stays what its round made it.
  have hentry : s.snapshot.get? pool = snapshot.get? pool := by
    rw [hbefore, hsnapshot] at hbeforeView
    exact replayPools_other (.inl hnotBefore) hbeforeView.symm
  have hfinal : final.snapshot.get? pool = s'.snapshot.get? pool := by
    have hafterView :=
      (foldlM_replayObjects_view degenbot lpData last queue after hmerged.separated).1
    rw [hafter] at hafterView
    exact replayPools_other (.inl hnotAfter) hafterView.symm
  have hothers : ∀ other, other ≠ pool → s'.snapshot.get? other = s.snapshot.get? other := by
    intro other hne
    rw [hmerged.snapshot, Dict.get?_set, if_neg hne]
  have hpool : s'.snapshot.get? pool = some (merge degenbot (snapshot.get? pool)
      (replay degenbot (poolHelper last ((snapshot.get? pool).getD TickMaps.empty) fee tickSpacing)
        (sortedUpdates ((queue.get? pool).getD [])))) := by
    rw [hmerged.snapshot, Dict.get?_set_self, hentry]
  have hhelper := hmerged.helper
  rw [hentry] at hhelper
  have hmaps : (poolHelper last ((snapshot.get? pool).getD TickMaps.empty) fee tickSpacing).maps =
      (snapshot.get? pool).getD TickMaps.empty := rfl
  rw [← merge_same_iff hwords (snapshot.get? pool) hmaps]
  refine ⟨fun ⟨⟨maps, hmaps, hsame, _⟩, _⟩ => ?_, fun hsame => ⟨⟨_, hpool, ?_, ?_⟩, hothers⟩⟩
  · rw [hpool] at hmaps
    rw [Option.some.inj hmaps]
    exact hsame.trans hhelper
  · exact hsame.trans hhelper.symm
  · rw [hfinal, hpool]

end Entry

/-! ### A position that is closed -/

theorem keepsWords_tickAccounting (inPlace : Bool) : (tickAccounting inPlace).KeepsWords := by
  have htouch : ∀ {tickSpacing : Nat} {maps : TickMaps} {tick : Int} {x : LiquidityAtTick} {w : Int},
      w ∈ maps.tickBitmap.keys → w ∈ (maps.touch tickSpacing tick x).tickBitmap.keys := by
    intro tickSpacing maps tick x w hw
    simp only [TickMaps.touch]
    split_ifs
    · obtain ⟨bitmap, hbitmap⟩ := Dict.mem_keys.mp hw
      rw [Dict.mem_keys]
      simp only [Dict.get?_set]
      split_ifs
      · exact ⟨_, rfl⟩
      · exact ⟨bitmap, hbitmap⟩
    · exact hw
  intro helper update w hw
  exact htouch (htouch hw)

def closedLp : PoolRecord :=
  ⟨.fill 1, some 3000, .fill 8, .fill 9, 7, none, .uniswapV3, "b"⟩

/-- One position, of liquidity 5 between the ticks 0 and 60. -/
def onePosition : Snapshot :=
  .ofList [(.fill 1, ⟨.ofList [(0, ⟨3⟩)], .ofList [(0, ⟨5, 5⟩), (60, ⟨-5, 5⟩)]⟩)]

theorem zero_lt_sixty : (0 : Int) < 60 := by decide

/-- A burn of that much of it. -/
def burnQueue (amount : Nat) : EventQueue :=
  .ofList [(.fill 1, [⟨2001, 0, ⟨-amount, 0, 60, zero_lt_sixty⟩⟩])]

/-- The round of the pool, with an `external_update` that copies. -/
def burnRound (amount : Nat) : Except PyError LoopState :=
  replayObjects (tickAccounting false) (.ofList [(.fill 1, closedLp)]) (some 2000) (burnQueue amount)
    (.start (poolHelper none .empty 3000 60) onePosition) (.fill 1)

theorem closed_tick_kept : ¬∀ (degenbot : Degenbot), degenbot.KeepsWords →
    ∀ (lpData : Dict Address PoolRecord) (last : Option Nat) (queue : EventQueue) (lpHelper : Helper)
      (snapshot : Snapshot) (before after : List Address) (pool : Address),
    queue.keys = before ++ pool :: after → ∀ lp, lpData.get? pool = some lp →
    ∀ s s' : LoopState, before.foldlM (replayObjects degenbot lpData last queue)
      (LoopState.start lpHelper snapshot) = .ok s →
    replayObjects degenbot lpData last queue s pool = .ok s' →
    ∃ maps, s'.snapshot.get? pool = some maps ∧ maps.Same s'.helper.maps := by
  intro h
  obtain ⟨s', hround⟩ : ∃ s', burnRound 5 = .ok s' := ⟨_, rfl⟩
  obtain ⟨maps, hmaps, hsame⟩ := h (tickAccounting false) (keepsWords_tickAccounting false)
    (.ofList [(.fill 1, closedLp)]) (some 2000) (burnQueue 5) (poolHelper none .empty 3000 60)
    onePosition [] [] (.fill 1) rfl closedLp rfl _ s' rfl hround
  have hkept : ((burnRound 5).toOption.bind fun s' => s'.snapshot.get? (.fill 1)).bind
      (fun maps => maps.tickData.get? 0) = some ⟨5, 5⟩ := by decide
  have hdropped : (burnRound 5).toOption.bind (fun s' => s'.helper.tickData.get? 0) = none := by decide
  rw [hround] at hkept hdropped
  simp only [Except.toOption, Option.bind_some] at hkept hdropped
  rw [hmaps, Option.bind_some, hsame.tickData] at hkept
  have hdropped : s'.helper.maps.tickData.get? 0 = none := hdropped
  rw [hdropped] at hkept
  cases hkept

/-- A burn of less leaves the helper's maps. -/
theorem entry_final_iff_partly_closed : ∃ s', burnRound 2 = .ok s' ∧
    ∃ maps, s'.snapshot.get? (.fill 1) = some maps ∧ maps.Same s'.helper.maps := by
  obtain ⟨s', hround⟩ : ∃ s', burnRound 2 = .ok s' := ⟨_, rfl⟩
  have hopen : ∀ maps, onePosition.get? (.fill 1) = some maps →
      ∀ tick, ¬Empties maps (sortedUpdates (((burnQueue 2).get? (.fill 1)).getD [])) tick := by
    intro maps hmaps tick hempties
    obtain rfl := Option.some.inj hmaps
    have hticks : ∀ t ∈ [(0 : Int), 60], ((TickMaps.mk (.ofList [(0, ⟨3⟩)])
        (.ofList [(0, ⟨5, 5⟩), (60, ⟨-5, 5⟩)])).atTick t).liquidityGross +
      (posted (sortedUpdates (((burnQueue 2).get? (.fill 1)).getD [])) t).liquidityGross ≠ 0 := by
      decide
    exact hticks tick hempties.held hempties.gross
  obtain ⟨⟨maps, hmaps, hsame, _⟩, _⟩ := (entry_final_iff (tickAccounting false)
    (keepsWords_tickAccounting false) (.ofList [(.fill 1, closedLp)]) (some 2000) (burnQueue 2)
    (poolHelper none .empty 3000 60) onePosition [] [] (.fill 1) rfl closedLp rfl _ s' s' rfl hround
    rfl).mpr (.inr hopen)
  exact ⟨s', hround, maps, hmaps, hsame⟩

end CreamBots.Builders.Liquidity
