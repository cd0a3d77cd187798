import CreamBots.Builders.Liquidity.Fetcher
import CreamBots.Data.Heap

/-! The loop over the queued pools, with its dictionaries as objects.

The fetcher fills one helper for all pools. Its maps are at first the very dictionaries
of the pool's entry in the snapshot, and whether they still are when the entry is
updated depends on whether `external_update` changes what it is given or puts copies in
its place. On separated objects the loop does what it does on values
(`replayObjects_view`), and of the helper's maps at the end of a round it leaves in the
entry exactly those if no tick of the entry was closed by copies (`entry_final_iff`). -/
namespace CreamBots.Builders.Liquidity
open Data

/-! ### The loop on objects -/

/-- What the loop works on. `helperMaps` is the object of the helper's two dictionaries;
those in `lpHelper` itself are not read. -/
structure LoopState where
  heap : Heap TickMaps
  liquiditySnapshot : Dict Address Nat
  lpHelper : Helper
  helperMaps : Nat

namespace LoopState

/-- What the snapshot holds. -/
def snapshot (s : LoopState) : Snapshot := s.heap.view s.liquiditySnapshot

/-- The helper with what its dictionaries hold. -/
def helper (s : LoopState) : Helper :=
  {s.lpHelper with
    tickData := (s.heap.get s.helperMaps).tickData
    tickBitmap := (s.heap.get s.helperMaps).tickBitmap}

/-- After the snapshot was loaded; the helper starts with dictionaries of its own. -/
def start (lpHelper : Helper) (snapshot : Snapshot) : LoopState :=
  let (heap, liquiditySnapshot) := Heap.load snapshot TickMaps.empty
  {heap := heap.alloc TickMaps.empty, liquiditySnapshot, lpHelper, helperMaps := heap.next}

end LoopState

section Loop
variable (degenbot : Degenbot)

/-- `lp_helper.external_update`. -/
def LoopState.externalUpdate (s : LoopState) (update : ExternalUpdate) : LoopState :=
  let updated := degenbot.externalUpdate s.helper update
  if degenbot.inPlace then
    {s with lpHelper := updated, heap := s.heap.write s.helperMaps updated.maps}
  else
    {s with lpHelper := updated, heap := s.heap.alloc updated.maps, helperMaps := s.heap.next}

/-- `previous_snapshot_tick_data` and `.._tick_bitmap`. -/
def LoopState.previous (s : LoopState) (pool : Address) : LoopState × Nat :=
  match s.liquiditySnapshot.get? pool with
  | some object => (s, object)
  | none => ({s with heap := s.heap.alloc TickMaps.empty}, s.heap.next)

/-- The pool's entry, made if there is none. -/
def LoopState.entry (s : LoopState) (pool : Address) : LoopState × Nat :=
  match s.liquiditySnapshot.get? pool with
  | some object => (s, object)
  | none => ({s with
      heap := s.heap.alloc TickMaps.empty
      liquiditySnapshot := s.liquiditySnapshot.set pool s.heap.next}, s.heap.next)

/-- `dict.update` of both dictionaries. -/
def TickMaps.update (held maps : TickMaps) : TickMaps :=
  ⟨held.tickBitmap.update maps.tickBitmap, held.tickData.update maps.tickData⟩

/-- `liquidity_snapshot[pool_address][...].update(lp_helper...)`. -/
def LoopState.mergeEntry (s : LoopState) (pool : Address) : LoopState :=
  let (s, entry) := s.entry pool
  {s with heap := s.heap.write entry ((s.heap.get entry).update (s.heap.get s.helperMaps))}

/-- The updates of a pool, on the helper set up for it, and the update of its entry. -/
def LoopState.replayAndMerge (s : LoopState) (pool : Address) (previous : Nat) (lpHelper : Helper)
    (updates : List ExternalUpdate) : LoopState :=
  (updates.foldl (LoopState.externalUpdate degenbot)
    {s with lpHelper, helperMaps := previous}).mergeEntry pool

/-- One round of the loop over `liquidity_events`. -/
def replayObjects (lpData : Dict Address PoolRecord) (snapshotLastBlock : Option Nat)
    (queue : EventQueue) (s : LoopState) (pool : Address) : Except PyError LoopState :=
  match lpData.get? pool with
  | none => .ok s
  | some lp =>
    let (s, previous) := s.previous pool
    match lp.fee with
    | none => .error .keyError
    | some fee =>
      match tickSpacingByFee.get? fee with
      | none => .error .keyError
      | some tickSpacing => .ok (s.replayAndMerge degenbot pool previous
          (poolHelper snapshotLastBlock (s.heap.get previous) fee tickSpacing)
          (sortedUpdates ((queue.get? pool).getD [])))

/-! ### A replay on objects -/

variable {degenbot}

/-- What a replay does to the objects: the helper ends with the maps of the replay on
values. If `external_update` works in place these are the dictionaries it was given, and
no others change; if not, no dictionaries change that there were. -/
structure Replayed (degenbot : Degenbot) (s s' : LoopState) (updates : List ExternalUpdate) :
    Prop where
  liquiditySnapshot : s'.liquiditySnapshot = s.liquiditySnapshot
  helper : s'.helper = replay degenbot s.helper updates
  next_le : s.heap.next ≤ s'.heap.next
  made : s'.helperMaps < s'.heap.next
  given : degenbot.inPlace = true → s'.helperMaps = s.helperMaps
  others : ∀ object, object < s.heap.next → (degenbot.inPlace = true → object ≠ s.helperMaps) →
    s'.heap.get object = s.heap.get object

theorem Replayed.refl {s : LoopState} (hmade : s.helperMaps < s.heap.next) :
    Replayed degenbot s s [] :=
  ⟨rfl, rfl, Nat.le_refl _, hmade, fun _ => rfl, fun _ _ _ => rfl⟩

theorem Replayed.trans {s s₁ s₂ : LoopState} {a b : List ExternalUpdate}
    (h₁ : Replayed degenbot s s₁ a) (h₂ : Replayed degenbot s₁ s₂ b) :
    Replayed degenbot s s₂ (a ++ b) := by
  refine ⟨h₂.liquiditySnapshot.trans h₁.liquiditySnapshot, ?_, h₁.next_le.trans h₂.next_le, h₂.made,
    fun hplace => (h₂.given hplace).trans (h₁.given hplace), fun object hlt hne => ?_⟩
  · rw [h₂.helper, h₁.helper, replay, replay, replay, List.foldl_append]
  · rw [h₂.others object (Nat.lt_of_lt_of_le hlt h₁.next_le), h₁.others object hlt hne]
    intro hplace
    rw [h₁.given hplace]
    exact hne hplace

variable (degenbot) in
theorem replayed_externalUpdate {s : LoopState} (hmade : s.helperMaps < s.heap.next)
    (update : ExternalUpdate) : Replayed degenbot s (s.externalUpdate degenbot update) [update] := by
  unfold LoopState.externalUpdate
  split
  · refine ⟨rfl, ?_, Nat.le_refl _, hmade, fun _ => rfl, fun object _ hne => ?_⟩
    · simp only [LoopState.helper, Heap.get_write_self]
      rfl
    · exact Heap.get_write_of_ne (hne ‹_›) _
  · refine ⟨rfl, ?_, Nat.le_succ _, Nat.lt_succ_self _, fun hplace => absurd hplace ‹_›,
      fun object hlt _ => Heap.get_alloc_of_lt hlt _⟩
    simp only [LoopState.helper, Heap.get_alloc_next]
    rfl

theorem replayed_foldl (updates : List ExternalUpdate) : ∀ {s : LoopState},
    s.helperMaps < s.heap.next →
    Replayed degenbot s (updates.foldl (LoopState.externalUpdate degenbot) s) updates := by
  induction updates with
  | nil => exact fun hmade => .refl hmade
  | cons update rest ih =>
    intro s hmade
    have hfirst := replayed_externalUpdate degenbot hmade update
    exact hfirst.trans (ih hfirst.made)

/-! ### A round on objects -/

/-- Key for key the same dictionaries. -/
structure TickMaps.Same (maps maps' : TickMaps) : Prop where
  tickData : ∀ tick, maps.tickData.get? tick = maps'.tickData.get? tick
  tickBitmap : ∀ w, maps.tickBitmap.get? w = maps'.tickBitmap.get? w

theorem TickMaps.Same.symm {maps maps' : TickMaps} (h : maps.Same maps') : maps'.Same maps :=
  ⟨fun tick => (h.tickData tick).symm, fun w => (h.tickBitmap w).symm⟩

theorem TickMaps.Same.trans {maps₁ maps₂ maps₃ : TickMaps} (h : maps₁.Same maps₂)
    (h' : maps₂.Same maps₃) : maps₁.Same maps₃ :=
  ⟨fun tick => (h.tickData tick).trans (h'.tickData tick),
    fun w => (h.tickBitmap w).trans (h'.tickBitmap w)⟩

theorem TickMaps.update_self (maps : TickMaps) : (maps.update maps).Same maps := by
  refine ⟨fun tick => ?_, fun w => ?_⟩
  · exact (Dict.get?_update ..).trans (Option.or_self ..)
  · exact (Dict.get?_update ..).trans (Option.or_self ..)

/-- What a round leaves, from the replay on values. -/
structure Merged (degenbot : Degenbot) (s s' : LoopState) (pool : Address) (helper : Helper) :
    Prop where
  snapshot : s'.snapshot = s.snapshot.set pool (merge degenbot (s.snapshot.get? pool) helper)
  separated : s'.heap.Separated s'.liquiditySnapshot
  helper : s'.helper.maps.Same helper.maps

variable {s : LoopState} {pool : Address}

theorem LoopState.maps_helper (s : LoopState) : s.helper.maps = s.heap.get s.helperMaps := rfl

/-- A helper with its own maps in its dictionaries. -/
theorem LoopState.helper_given (s : LoopState) {lpHelper : Helper} {object : Nat}
    (hmaps : s.heap.get object = lpHelper.maps) :
    ({s with lpHelper, helperMaps := object} : LoopState).helper = lpHelper := by
  simp only [LoopState.helper, hmaps]
  rfl

theorem merge_eq (degenbot : Degenbot) (entry : Option TickMaps) (helper : Helper) :
    merge degenbot entry helper = TickMaps.update (match entry with
      | some maps => if degenbot.inPlace then helper.maps else maps
      | none => TickMaps.empty) helper.maps := rfl

/-- After the write to the entry the helper's dictionaries, which may be the entry's,
still have what the replay left in them. -/
theorem same_after_write {heap : Heap TickMaps} (entry : Nat) {helperMaps : Nat} {maps : TickMaps}
    (hmaps : heap.get helperMaps = maps) :
    ((heap.write entry ((heap.get entry).update maps)).get helperMaps).Same maps := by
  by_cases h : helperMaps = entry
  · rw [← h, hmaps, Heap.get_write_self]
    exact maps.update_self
  · rw [Heap.get_write_of_ne h, hmaps]
    exact ⟨fun _ => rfl, fun _ => rfl⟩

/-- A pool with an entry: the helper is given its dictionaries. -/
theorem merged_of_entry (hs : s.heap.Separated s.liquiditySnapshot) {object : Nat}
    (hentry : s.liquiditySnapshot.get? pool = some object) {lpHelper : Helper}
    (hmaps : s.heap.get object = lpHelper.maps) (updates : List ExternalUpdate) :
    Merged degenbot s (s.replayAndMerge degenbot pool object lpHelper updates) pool
      (replay degenbot lpHelper updates) := by
  have hlt := hs.made pool object hentry
  have h : Replayed degenbot {s with lpHelper, helperMaps := object} _ updates :=
    replayed_foldl updates hlt
  have hhelper := h.helper
  rw [s.helper_given hmaps] at hhelper
  unfold LoopState.replayAndMerge
  generalize updates.foldl (LoopState.externalUpdate degenbot)
    {s with lpHelper, helperMaps := object} = s' at h hhelper ⊢
  have htable : s'.liquiditySnapshot = s.liquiditySnapshot := h.liquiditySnapshot
  have hs' : s'.heap.Separated s.liquiditySnapshot := hs.mono h.next_le
  have hreplayed : s'.heap.get s'.helperMaps = (replay degenbot lpHelper updates).maps := by
    rw [← s'.maps_helper, hhelper]
  have hheld : s'.heap.get object =
      if degenbot.inPlace then (replay degenbot lpHelper updates).maps else s.heap.get object := by
    cases hplace : degenbot.inPlace with
    | true =>
      rw [← hreplayed, h.given hplace]
      rfl
    | false => exact h.others object hlt (by simp [hplace])
  have hsame : s'.entry pool = (s', object) := by
    rw [LoopState.entry, htable, hentry]
  rw [LoopState.mergeEntry, hsame]
  refine ⟨?_, ?_, ?_⟩
  · have hmerged : (s'.heap.get object).update (s'.heap.get s'.helperMaps) =
        merge degenbot (s.snapshot.get? pool) (replay degenbot lpHelper updates) := by
      rw [LoopState.snapshot, Heap.get?_view, hentry, merge_eq, hheld, hreplayed]
      rfl
    rw [← hmerged]
    show (s'.heap.write object _).view s'.liquiditySnapshot =
      (s.heap.view s.liquiditySnapshot).set pool _
    rw [htable, ← hs.view_write hentry]
    apply Heap.view_congr
    intro key object' hget
    by_cases hobject : object' = object
    · rw [hobject, Heap.get_write_self, Heap.get_write_self]
    · rw [Heap.get_write_of_ne hobject, Heap.get_write_of_ne hobject]
      exact h.others object' (hs.made key object' hget) fun _ => hobject
  · show (s'.heap.write object _).Separated s'.liquiditySnapshot
    rw [htable]
    exact hs'.mono (Nat.le_refl _)
  · have hwritten := same_after_write object hreplayed
    rw [← hreplayed] at hwritten ⊢
    exact hwritten

/-- A pool without one: the helper is given new dictionaries, and so is the entry. -/
theorem merged_of_none (hs : s.heap.Separated s.liquiditySnapshot)
    (hentry : s.liquiditySnapshot.get? pool = none) {lpHelper : Helper}
    (hmaps : lpHelper.maps = TickMaps.empty) (updates : List ExternalUpdate) :
    Merged degenbot s (({s with heap := s.heap.alloc TickMaps.empty} : LoopState).replayAndMerge
      degenbot pool s.heap.next lpHelper updates) pool (replay degenbot lpHelper updates) := by
  have hmade : s.heap.next < (s.heap.alloc TickMaps.empty).next := Nat.lt_succ_self _
  have h : Replayed degenbot
      {s with heap := s.heap.alloc TickMaps.empty, lpHelper, helperMaps := s.heap.next} _ updates :=
    replayed_foldl updates hmade
  have hhelper := h.helper
  rw [LoopState.helper_given {s with heap := s.heap.alloc TickMaps.empty}
    (by rw [Heap.get_alloc_next, hmaps])] at hhelper
  unfold LoopState.replayAndMerge
  generalize updates.foldl (LoopState.externalUpdate degenbot) _ = s' at h hhelper ⊢
  have htable : s'.liquiditySnapshot = s.liquiditySnapshot := h.liquiditySnapshot
  have hs' : s'.heap.Separated s.liquiditySnapshot :=
    hs.mono ((Nat.le_succ _).trans h.next_le)
  have hreplayed : s'.heap.get s'.helperMaps = (replay degenbot lpHelper updates).maps := by
    rw [← s'.maps_helper, hhelper]
  have hview : s'.heap.view s.liquiditySnapshot = s.snapshot := by
    apply Heap.view_congr
    intro key object hget
    have hlt := hs.made key object hget
    rw [h.others object (Nat.lt_succ_of_lt hlt) fun _ => Nat.ne_of_lt hlt]
    exact Heap.get_alloc_of_lt hlt _
  have hnew : s'.entry pool = ({s' with
      heap := s'.heap.alloc TickMaps.empty
      liquiditySnapshot := s'.liquiditySnapshot.set pool s'.heap.next}, s'.heap.next) := by
    rw [LoopState.entry, htable, hentry]
  have hkept : (s'.heap.alloc TickMaps.empty).get s'.helperMaps =
      (replay degenbot lpHelper updates).maps := by
    rw [Heap.get_alloc_of_lt h.made, hreplayed]
  rw [LoopState.mergeEntry, hnew]
  refine ⟨?_, ?_, ?_⟩
  · have hnone : s.snapshot.get? pool = none := by
      rw [LoopState.snapshot, Heap.get?_view, hentry, Option.map_none]
    rw [hnone, merge_eq]
    show ((s'.heap.alloc TickMaps.empty).write s'.heap.next _).view
      (s'.liquiditySnapshot.set pool s'.heap.next) = _
    rw [Heap.write_alloc, Heap.get_alloc_next, hkept, htable, hs'.view_set_alloc, hview]
  · show ((s'.heap.alloc TickMaps.empty).write s'.heap.next _).Separated
      (s'.liquiditySnapshot.set pool s'.heap.next)
    rw [Heap.write_alloc, htable]
    exact hs'.set_alloc pool _
  · have hwritten := same_after_write s'.heap.next hkept
    rw [← hkept] at hwritten ⊢
    exact hwritten

/-! ### The loop on objects and the loop on values -/

variable {lpData : Dict Address PoolRecord} {last : Option Nat} {queue : EventQueue}

variable (degenbot last queue) in
/-- The round of a listed pool that does not raise. -/
theorem replayObjects_listed (hs : s.heap.Separated s.liquiditySnapshot) {lp : PoolRecord}
    {fee tickSpacing : Nat} (hlp : lpData.get? pool = some lp) (hfee : lp.fee = some fee)
    (hspacing : tickSpacingByFee.get? fee = some tickSpacing) :
    ∃ s', replayObjects degenbot lpData last queue s pool = .ok s' ∧
      Merged degenbot s s' pool (replay degenbot
        (poolHelper last ((s.snapshot.get? pool).getD TickMaps.empty) fee tickSpacing)
        (sortedUpdates ((queue.get? pool).getD []))) := by
  have hview : s.snapshot.get? pool = (s.liquiditySnapshot.get? pool).map s.heap.get :=
    Heap.get?_view ..
  simp only [replayObjects, hlp, hfee, hspacing, LoopState.previous]
  cases hentry : s.liquiditySnapshot.get? pool with
  | some object =>
    rw [hview, hentry]
    exact ⟨_, rfl, merged_of_entry hs hentry rfl _⟩
  | none =>
    rw [hview, hentry]
    refine ⟨_, rfl, ?_⟩
    simp only [Heap.get_alloc_next]
    exact merged_of_none hs hentry rfl _

variable (degenbot lpData last queue) in
/-- A round does to what the objects hold what it does on values. -/
theorem replayObjects_view (hs : s.heap.Separated s.liquiditySnapshot) (pool : Address) :
    (replayObjects degenbot lpData last queue s pool).map LoopState.snapshot =
        replayPool degenbot lpData last queue s.snapshot pool ∧
      ∀ s', replayObjects degenbot lpData last queue s pool = .ok s' →
        s'.heap.Separated s'.liquiditySnapshot := by
  cases hlp : lpData.get? pool with
  | none =>
    simp only [replayObjects, replayPool, hlp]
    exact ⟨rfl, fun s' h => by cases h; exact hs⟩
  | some lp =>
    cases hfee : lp.fee with
    | none =>
      simp only [replayObjects, replayPool, replayEntry, hlp, hfee]
      exact ⟨rfl, fun s' h => by cases h⟩
    | some fee =>
      cases hspacing : tickSpacingByFee.get? fee with
      | none =>
        simp only [replayObjects, replayPool, replayEntry, hlp, hfee, hspacing]
        exact ⟨rfl, fun s' h => by cases h⟩
      | some tickSpacing =>
        obtain ⟨s', hround, hmerged⟩ := replayObjects_listed degenbot last queue hs hlp hfee
          hspacing
        rw [hround]
        refine ⟨?_, fun s₂ h => by cases h; exact hmerged.separated⟩
        simp only [replayPool, replayEntry, hlp, hfee, hspacing]
        exact congrArg Except.ok hmerged.snapshot

variable (degenbot lpData last queue) in
/-- And so does the loop. -/
theorem foldlM_replayObjects_view (keys : List Address) : ∀ {s : LoopState},
    s.heap.Separated s.liquiditySnapshot →
    (keys.foldlM (replayObjects degenbot lpData last queue) s).map LoopState.snapshot =
        keys.foldlM (replayPool degenbot lpData last queue) s.snapshot ∧
      ∀ s', keys.foldlM (replayObjects degenbot lpData last queue) s = .ok s' →
        s'.heap.Separated s'.liquiditySnapshot := by
  induction keys with
  | nil => exact fun hs => ⟨rfl, fun s' h => by cases h; exact hs⟩
  | cons pool keys ih =>
    intro s hs
    obtain ⟨hview, hsep⟩ := replayObjects_view degenbot lpData last queue hs pool
    rw [List.foldlM_cons, List.foldlM_cons, ← hview]
    cases hround : replayObjects degenbot lpData last queue s pool with
    | error e => exact ⟨rfl, nofun⟩
    | ok next => exact ih (hsep next hround)

theorem LoopState.start_separated (lpHelper : Helper) (snapshot : Snapshot) :
    (start lpHelper snapshot).heap.Separated (start lpHelper snapshot).liquiditySnapshot ∧
      (start lpHelper snapshot).snapshot = snapshot := by
  obtain ⟨hseparated, hview⟩ := Heap.load_spec snapshot TickMaps.empty
  exact ⟨hseparated.mono (Nat.le_succ _), (hseparated.view_alloc _).trans hview⟩

end Loop
end CreamBots.Builders.Liquidity
