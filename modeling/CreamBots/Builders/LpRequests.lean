import CreamBots.Builders.LpFetcher

/-! What a run asks the node for, and how often.

A request takes in the block at which the next one starts, so an uninterrupted run asks
twice for every block of its interval that starts a request after the first, and once
for the others (`coverage_requests`). The creations of such blocks get two records; if
there are none, each creation of the interval gets one (`recorded_once_iff`). -/
namespace CreamBots.Builders.LpFetcher
open Data

/-- The ranges of blocks that the loop goes through. -/
def requests (previousBlock : Nat) (run : Run) : List BlockRange :=
  (chunkStarts previousBlock run.currentBlock).map fun i => ⟨i, run.endBlock i⟩

/-- The block starts a request that is not the first. -/
def StartsLaterRequest (previousBlock currentBlock n : Nat) : Prop :=
  previousBlock + 1 < n ∧ n ≤ currentBlock ∧ blockSpan ∣ n - (previousBlock + 1)

instance (previousBlock currentBlock n : Nat) :
    Decidable (StartsLaterRequest previousBlock currentBlock n) :=
  inferInstanceAs (Decidable (_ ∧ _ ∧ _))

/-- The induction is on the chunks to come, as for `scan_sound`. -/
theorem coverage_chunks (run : Run) (b : Nat) (n : Nat) : ∀ i, Covers run.currentBlock i n →
    coverage ((List.range' i n blockSpan).map fun i => ⟨i, run.endBlock i⟩) b =
      (decide (i ≤ b ∧ b ≤ run.currentBlock)).toNat +
        (decide (i < b ∧ b ≤ run.currentBlock ∧ blockSpan ∣ b - i)).toNat := by
  induction n with
  | zero =>
    intro i hcovers
    have hreach := hcovers.reach
    rw [decide_eq_false (by omega), decide_eq_false (by omega)]
    rfl
  | succ n ih =>
    intro i hcovers
    obtain ⟨hi, hcovers⟩ := hcovers.next
    rw [List.range'_succ, List.map_cons, coverage, List.countP_cons, ← coverage, ih _ hcovers]
    have hthis : (i ≤ b ∧ b ≤ run.endBlock i) ↔ (i ≤ b ∧ b ≤ run.currentBlock) ∧ b ≤ i + 10000 := by
      show (i ≤ b ∧ b ≤ if i + 10000 > run.currentBlock then run.currentBlock else i + 10000) ↔ _
      split <;> omega
    have hspan : blockSpan = 10000 := rfl
    simp only [hspan, hthis, decide_eq_true_eq]
    by_cases hin : i ≤ b ∧ b ≤ run.currentBlock
    · rcases Nat.lt_trichotomy b (i + 10000) with hb | hb | hb
      · -- In this request and in no other.
        rw [decide_eq_false (by omega), decide_eq_false (by omega), if_pos ⟨hin, by omega⟩,
          decide_eq_true hin, decide_eq_false (by omega)]
        rfl
      · -- The last block of this request is the first of the next.
        rw [decide_eq_true ⟨by omega, hin.2⟩, decide_eq_false (by omega), if_pos ⟨hin, by omega⟩,
          decide_eq_true hin, decide_eq_true ⟨by omega, hin.2, by omega⟩]
        rfl
      · have hlater : (i + 10000 < b ∧ b ≤ run.currentBlock ∧ 10000 ∣ b - (i + 10000)) ↔
            i < b ∧ b ≤ run.currentBlock ∧ 10000 ∣ b - i := by omega
        rw [decide_eq_true ⟨by omega, hin.2⟩, if_neg (by omega), decide_eq_true hin,
          decide_eq_decide.mpr hlater, Nat.add_zero]
    · rw [decide_eq_false (by omega), decide_eq_false (by omega), if_neg fun h => hin h.1,
        decide_eq_false hin, decide_eq_false (by omega)]
      rfl

theorem coverage_requests (previousBlock : Nat) (run : Run) (b : Nat) :
    coverage (requests previousBlock run) b =
      (decide (previousBlock < b ∧ b ≤ run.currentBlock)).toNat +
        (decide (StartsLaterRequest previousBlock run.currentBlock b)).toNat :=
  coverage_chunks run b _ (previousBlock + 1) (covers_chunks previousBlock run.currentBlock)

/-- The requests leave out no block of the interval and ask for no other. -/
theorem requests_cover (previousBlock : Nat) (run : Run) (b : Nat) :
    (∃ r ∈ requests previousBlock run, r.Has b) ↔ previousBlock < b ∧ b ≤ run.currentBlock := by
  rw [← coverage_pos, coverage_requests]
  by_cases hin : previousBlock < b ∧ b ≤ run.currentBlock
  · rw [decide_eq_true hin, Bool.toNat_true]
    exact ⟨fun _ => hin, fun _ => by omega⟩
  · have hnot : ¬StartsLaterRequest previousBlock run.currentBlock b :=
      fun h => hin ⟨by have := h.1; omega, h.2.1⟩
    rw [decide_eq_false hin, decide_eq_false hnot]
    exact ⟨fun h => absurd h (by decide), fun h => absurd h hin⟩

/-- They are disjoint just when one is enough. -/
theorem requests_disjoint_iff (previousBlock : Nat) (run : Run) :
    ((requests previousBlock run).Pairwise fun r r' => ∀ n, ¬(r.Has n ∧ r'.Has n)) ↔
      run.currentBlock ≤ previousBlock + blockSpan := by
  rw [disjoint_iff_coverage]
  simp only [coverage_requests]
  refine ⟨fun h => ?_, fun h b => ?_⟩
  · by_contra hlong
    have hb := h (previousBlock + 1 + blockSpan)
    have hin : previousBlock < previousBlock + 1 + blockSpan ∧
        previousBlock + 1 + blockSpan ≤ run.currentBlock := by omega
    have hstarts : StartsLaterRequest previousBlock run.currentBlock (previousBlock + 1 + blockSpan) :=
      ⟨Nat.lt_add_of_pos_right (by decide), hin.2, by rw [Nat.add_sub_cancel_left]⟩
    rw [decide_eq_true hin, decide_eq_true hstarts] at hb
    exact absurd hb (by decide)
  · have hnot : ¬StartsLaterRequest previousBlock run.currentBlock b := by
      intro ⟨hlow, hhigh, hspan⟩
      have := Nat.le_of_dvd (by omega) hspan
      omega
    rw [decide_eq_false hnot, Bool.toNat_false, Nat.add_zero]
    exact Bool.toNat_le _

variable {v : Version} (node : EventLog (Event.blockNumber (v := v))) (factory : Factory)

/-- An uninterrupted run appends a record of whatever it is answered. -/
theorem scan_lpData (run : Run) (hs : run.signal = none) (hf : run.failure = none)
    (starts : List Nat) : ∀ (k : Nat) (lpData : List PoolRecord) (writes : List (List PoolRecord)),
    (scan node factory run starts k lpData writes).lpData =
      lpData ++ (starts.flatMap fun i => node.getLogs i (run.endBlock i)).map (factory.record v) := by
  induction starts with
  | nil =>
    intro k lpData writes
    exact (List.append_nil _).symm
  | cons i starts ih =>
    intro k lpData writes
    have hk : run.keepRunning k = true := by simp [Run.keepRunning, hs]
    have hr : run.raises k = false := by simp [Run.raises, hf]
    rw [scan, hk, hr, List.flatMap_cons, List.map_append, ← List.append_assoc]
    exact ih _ _ _

/-- The creations of the interval. -/
def creations (previousBlock currentBlock : Nat) : List (Event v) :=
  node.history.filter fun e => decide (previousBlock < e.blockNumber ∧ e.blockNumber ≤ currentBlock)

/-- Those that are asked for a second time. -/
def creationsAskedTwice (previousBlock currentBlock : Nat) : List (Event v) :=
  node.history.filter fun e => decide (StartsLaterRequest previousBlock currentBlock e.blockNumber)

theorem answers_perm (previousBlock : Nat) (run : Run) :
    ((chunkStarts previousBlock run.currentBlock).flatMap fun i =>
        node.getLogs i (run.endBlock i)).Perm
      (creations node previousBlock run.currentBlock ++
        creationsAskedTwice node previousBlock run.currentBlock) := by
  have h := node.getLogs_perm_of_coverage fun e _ =>
    coverage_requests previousBlock run e.blockNumber
  rw [requests, List.flatMap_map] at h
  exact h

/-- **A run that nothing stops appends one record for each creation of its interval
exactly if none of them is in a block that starts a later request.** The ranges it asks
for cover the interval and are disjoint exactly if one is enough. -/
theorem recorded_once_iff (previousBlock : Nat) (run : Run) (hs : run.signal = none)
    (hf : run.failure = none) (k : Nat) (lpData : List PoolRecord)
    (writes : List (List PoolRecord)) :
    ((∃ appended, (scan node factory run (chunkStarts previousBlock run.currentBlock) k lpData
          writes).lpData = lpData ++ appended ∧
        appended.Perm ((creations node previousBlock run.currentBlock).map (factory.record v))) ↔
      ∀ e ∈ node.history, ¬StartsLaterRequest previousBlock run.currentBlock e.blockNumber) ∧
    ((((requests previousBlock run).Pairwise fun r r' => ∀ n, ¬(r.Has n ∧ r'.Has n)) ∧
        ∀ n, (∃ r ∈ requests previousBlock run, r.Has n) ↔
          previousBlock < n ∧ n ≤ run.currentBlock) ↔
      run.currentBlock ≤ previousBlock + blockSpan) := by
  have hanswers := (answers_perm node previousBlock run).map (factory.record v)
  have htwice : creationsAskedTwice node previousBlock run.currentBlock = [] ↔
      ∀ e ∈ node.history, ¬StartsLaterRequest previousBlock run.currentBlock e.blockNumber := by
    simp only [creationsAskedTwice, List.filter_eq_nil_iff, decide_eq_true_eq]
  refine ⟨⟨fun ⟨appended, happended, hperm⟩ => ?_, fun h => ⟨_, scan_lpData node factory run hs hf ..,
    ?_⟩⟩, ?_⟩
  · rw [scan_lpData node factory run hs hf, List.append_cancel_left_eq] at happended
    -- There is no room for a second record.
    have hlength := (happended ▸ hanswers.symm).length_eq.trans hperm.length_eq
    rw [List.length_map, List.length_map, List.length_append] at hlength
    exact htwice.mp (List.length_eq_zero_iff.mp (by omega))
  · rw [htwice.mpr h, List.append_nil] at hanswers
    exact hanswers
  · rw [← requests_disjoint_iff previousBlock run]
    exact and_iff_left (requests_cover previousBlock run)

/-! ### A pool at a boundary -/

/-- A pair that was created in block `b`, and the only one. -/
def oneCreation (b : Nat) : EventLog (Event.blockNumber (v := .v2)) :=
  .ofHistory [⟨⟨.fill 1, .fill 2, .fill 3, none⟩, b⟩] (List.pairwise_singleton ..)

def deployedAtZero : Factory := ⟨"a", 0, some 3⟩

/-- The second request starts with block 10001, and the first has ended with it. -/
theorem boundary_creation_recorded_twice : ¬∀ (node : EventLog (Event.blockNumber (v := .v2)))
    (factory : Factory) (previousBlock : Nat) (run : Run), run.signal = none → run.failure = none →
    ∃ appended, (scan node factory run (chunkStarts previousBlock run.currentBlock) 0 [] []).lpData =
        [] ++ appended ∧
      appended.Perm ((creations node previousBlock run.currentBlock).map (factory.record .v2)) := by
  intro h
  obtain ⟨appended, happended, hperm⟩ := h (oneCreation 10001) deployedAtZero 0 ⟨10002, none, none⟩
    rfl rfl
  have htwice : (scan (oneCreation 10001) deployedAtZero ⟨10002, none, none⟩ (chunkStarts 0 10002) 0
      [] []).lpData.length = 2 := by decide
  have honce : (creations (oneCreation 10001) 0 10002).length = 1 := by decide
  have hlength := hperm.length_eq
  rw [List.length_map, honce] at hlength
  rw [happended, List.nil_append, hlength] at htwice
  cases htwice

/-- One block later it is recorded once. -/
theorem recorded_once_iff_later : ∃ appended,
    (scan (oneCreation 10002) deployedAtZero ⟨10002, none, none⟩ (chunkStarts 0 10002) 0 [] []).lpData =
        [] ++ appended ∧
      appended.Perm ((creations (oneCreation 10002) 0 10002).map (deployedAtZero.record .v2)) :=
  (recorded_once_iff (oneCreation 10002) deployedAtZero 0 ⟨10002, none, none⟩ rfl rfl 0 [] []).1.mpr
    (by decide)

end CreamBots.Builders.LpFetcher
