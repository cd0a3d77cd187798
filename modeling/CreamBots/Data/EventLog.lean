import CreamBots.Data.Sorted

/-! Events asked for by block range.

An `EventLog` is a node's answer to `get_logs` for one kind of event: the chain's
events in chain order, and for an inclusive range of blocks exactly those of its
blocks. Ranges laid end to end (`Tiles`) ask for every block between their ends
once, and what they are answered is the history of those blocks (`Tiles.getLogs`). Of
other ranges the answers hold an event as often as there are ranges with its block
(`count_flatMap_getLogs`). -/
namespace CreamBots.Data

structure EventLog {ε : Type} (block : ε → Nat) where
  history : List ε
  ordered : history.Pairwise fun e e' => block e ≤ block e'
  getLogs : Nat → Nat → List ε
  getLogs_eq : ∀ fromBlock toBlock, getLogs fromBlock toBlock =
    history.filter fun e => decide (fromBlock ≤ block e ∧ block e ≤ toBlock)

namespace EventLog
variable {ε : Type} {block : ε → Nat} (log : EventLog block)

/-- A node that filters the history itself. -/
def ofHistory (history : List ε) (ordered : history.Pairwise fun e e' => block e ≤ block e') :
    EventLog block :=
  ⟨history, ordered, fun i j => history.filter fun e => decide (i ≤ block e ∧ block e ≤ j),
    fun _ _ => rfl⟩

theorem mem_getLogs {i j : Nat} {e : ε} :
    e ∈ log.getLogs i j ↔ e ∈ log.history ∧ i ≤ block e ∧ block e ≤ j := by
  rw [log.getLogs_eq, List.mem_filter, decide_eq_true_iff]

theorem getLogs_ordered (i j : Nat) :
    (log.getLogs i j).Pairwise fun e e' => block e ≤ block e' := by
  rw [log.getLogs_eq]
  exact log.ordered.filter _

/-- The events of the blocks from `lo` on and before `hi`. -/
def between (lo hi : Nat) : List ε :=
  log.history.filter fun e => decide (lo ≤ block e ∧ block e < hi)

theorem getLogs_eq_between (i j : Nat) : log.getLogs i j = log.between i (j + 1) := by
  rw [log.getLogs_eq, between]
  apply List.filter_congr
  intro e _
  rw [decide_eq_decide]
  omega

theorem between_self (lo : Nat) : log.between lo lo = [] := by
  rw [between, List.filter_eq_nil_iff]
  intro e _ h
  have := of_decide_eq_true h
  omega

end EventLog

/-- The events of two spans that meet. -/
theorem EventLog.between_append {ε : Type} {block : ε → Nat} (log : EventLog block)
    {lo mid hi : Nat} (hlo : lo ≤ mid) (hhi : mid ≤ hi) :
    log.between lo mid ++ log.between mid hi = log.between lo hi := by
  have h := filter_append_filter_not (P := fun e => decide (block e < mid))
    (l := log.between lo hi) ((log.ordered.filter _).imp fun hle hlt =>
      decide_eq_true (Nat.lt_of_le_of_lt hle (of_decide_eq_true hlt)))
  rw [← h, between, between, between, List.filter_filter, List.filter_filter]
  congr 1
  · apply List.filter_congr
    intro e _
    rw [← Bool.decide_and, decide_eq_decide]
    omega
  · apply List.filter_congr
    intro e _
    rw [← decide_not, ← Bool.decide_and, decide_eq_decide]
    omega

/-- An inclusive range of blocks. -/
structure BlockRange where
  fromBlock : Nat
  toBlock : Nat
deriving DecidableEq

def BlockRange.Has (r : BlockRange) (n : Nat) : Prop := r.fromBlock ≤ n ∧ n ≤ r.toBlock

/-- The ranges lie end to end from block `lo` to the block before `hi`. -/
def Tiles : List BlockRange → Nat → Nat → Prop
  | [], lo, hi => lo = hi
  | r :: rest, lo, hi => r.fromBlock = lo ∧ r.fromBlock ≤ r.toBlock ∧ Tiles rest (r.toBlock + 1) hi

namespace Tiles

theorem le {l : List BlockRange} {lo hi : Nat} (h : Tiles l lo hi) : lo ≤ hi := by
  induction l generalizing lo with
  | nil => exact Nat.le_of_eq h
  | cons r rest ih =>
    obtain ⟨rfl, hr, hrest⟩ := h
    have := ih hrest
    omega

theorem append {l l' : List BlockRange} {lo mid hi : Nat} (h : Tiles l lo mid)
    (h' : Tiles l' mid hi) : Tiles (l ++ l') lo hi := by
  induction l generalizing lo with
  | nil =>
    obtain rfl : lo = mid := h
    exact h'
  | cons r rest ih => exact ⟨h.1, h.2.1, ih h.2.2⟩

/-- They meet without overlap. -/
theorem contiguous {l : List BlockRange} {lo hi : Nat} (h : Tiles l lo hi) :
    l.IsChain fun r r' => r'.fromBlock = r.toBlock + 1 := by
  induction l generalizing lo with
  | nil => exact List.IsChain.nil
  | cons r rest ih =>
    cases rest with
    | nil => exact List.IsChain.singleton r
    | cons r' rest => exact List.isChain_cons_cons.mpr ⟨h.2.2.1, ih h.2.2⟩

theorem bounds {l : List BlockRange} {lo hi : Nat} (h : Tiles l lo hi) :
    ∀ r ∈ l, lo ≤ r.fromBlock ∧ r.fromBlock ≤ r.toBlock ∧ r.toBlock < hi := by
  induction l generalizing lo with
  | nil => simp
  | cons r rest ih =>
    obtain ⟨rfl, hr, hrest⟩ := h
    have hle := hrest.le
    intro r' hr'
    rcases List.mem_cons.mp hr' with rfl | hm
    · omega
    · have := ih hrest r' hm
      omega

theorem disjoint {l : List BlockRange} {lo hi : Nat} (h : Tiles l lo hi) :
    l.Pairwise fun r r' => ∀ n, ¬(r.Has n ∧ r'.Has n) := by
  induction l generalizing lo with
  | nil => exact List.Pairwise.nil
  | cons r rest ih =>
    obtain ⟨rfl, hr, hrest⟩ := h
    refine List.pairwise_cons.mpr ⟨fun r' hr' n hn => ?_, ih hrest⟩
    have hlow := (hrest.bounds r' hr').1
    obtain ⟨⟨_, hn⟩, ⟨hn', _⟩⟩ := hn
    omega

theorem cover {l : List BlockRange} {lo hi : Nat} (h : Tiles l lo hi) (n : Nat) :
    (∃ r ∈ l, r.Has n) ↔ lo ≤ n ∧ n < hi := by
  refine ⟨fun hn => ?_, fun hn => ?_⟩
  · obtain ⟨r, hr, hlow, hhigh⟩ := hn
    have := h.bounds r hr
    omega
  · induction l generalizing lo with
    | nil =>
      have : lo = hi := h
      omega
    | cons r rest ih =>
      obtain ⟨rfl, hr, hrest⟩ := h
      by_cases hin : n ≤ r.toBlock
      · exact ⟨r, List.mem_cons_self .., hn.1, hin⟩
      · obtain ⟨r', hr', hh⟩ := ih hrest (by omega)
        exact ⟨r', List.mem_cons_of_mem r hr', hh⟩

/-- What the node answers to ranges laid end to end. -/
theorem getLogs {ε : Type} {block : ε → Nat} (log : EventLog block) {l : List BlockRange}
    {lo hi : Nat} (h : Tiles l lo hi) :
    (l.flatMap fun r => log.getLogs r.fromBlock r.toBlock) = log.between lo hi := by
  induction l generalizing lo with
  | nil =>
    obtain rfl : lo = hi := h
    exact log.between_self lo |>.symm
  | cons r rest ih =>
    obtain ⟨rfl, hr, hrest⟩ := h
    rw [List.flatMap_cons, ih hrest, log.getLogs_eq_between]
    exact log.between_append (by omega) hrest.le

end Tiles

/-! ### Ranges that may overlap -/

/-- How many of the ranges hold the block. -/
def coverage (ranges : List BlockRange) (n : Nat) : Nat :=
  ranges.countP fun r => decide (r.fromBlock ≤ n ∧ n ≤ r.toBlock)

theorem coverage_pos {ranges : List BlockRange} {n : Nat} :
    0 < coverage ranges n ↔ ∃ r ∈ ranges, r.Has n := by
  simp only [coverage, List.countP_pos_iff, decide_eq_true_eq, BlockRange.Has]

theorem disjoint_iff_coverage {ranges : List BlockRange} :
    (ranges.Pairwise fun r r' => ∀ n, ¬(r.Has n ∧ r'.Has n)) ↔ ∀ n, coverage ranges n ≤ 1 := by
  induction ranges with
  | nil => simp [coverage]
  | cons r rest ih =>
    have hcons : ∀ n, coverage (r :: rest) n = coverage rest n +
        (decide (r.fromBlock ≤ n ∧ n ≤ r.toBlock)).toNat := by
      intro n
      rw [coverage, List.countP_cons, ← coverage]
      cases decide (r.fromBlock ≤ n ∧ n ≤ r.toBlock) <;> rfl
    rw [List.pairwise_cons, ih]
    refine ⟨fun ⟨hfirst, hrest⟩ n => ?_, fun h => ⟨fun r' hr' n hn => ?_, fun n => ?_⟩⟩
    · rw [hcons]
      by_cases hn : r.fromBlock ≤ n ∧ n ≤ r.toBlock
      · have hnone : ¬0 < coverage rest n := by
          rw [coverage_pos]
          exact fun ⟨r', hr', hn'⟩ => hfirst r' hr' n ⟨hn, hn'⟩
        rw [decide_eq_true hn, Bool.toNat_true]
        omega
      · rw [decide_eq_false hn, Bool.toNat_false]
        exact hrest n
    · have hpos := coverage_pos.mpr ⟨r', hr', hn.2⟩
      have hin : r.fromBlock ≤ n ∧ n ≤ r.toBlock := hn.1
      have hle := h n
      rw [hcons, decide_eq_true hin, Bool.toNat_true] at hle
      omega
    · have hle := h n
      rw [hcons] at hle
      omega

namespace EventLog
variable {ε : Type} {block : ε → Nat} (log : EventLog block)

theorem count_filter_toNat [DecidableEq ε] (P : ε → Bool) (l : List ε) (e : ε) :
    (l.filter P).count e = (P e).toNat * l.count e := by
  cases hP : P e with
  | true => rw [List.count_filter hP, Bool.toNat_true, Nat.one_mul]
  | false =>
    rw [Bool.toNat_false, Nat.zero_mul, List.count_eq_zero]
    intro hmem
    rw [(List.mem_filter.mp hmem).2] at hP
    cases hP

theorem count_flatMap_getLogs [DecidableEq ε] (ranges : List BlockRange) (e : ε) :
    (ranges.flatMap fun r => log.getLogs r.fromBlock r.toBlock).count e =
      coverage ranges (block e) * log.history.count e := by
  induction ranges with
  | nil => simp [coverage]
  | cons r rest ih =>
    rw [List.flatMap_cons, List.count_append, ih, coverage, coverage, List.countP_cons,
      Nat.add_mul, Nat.add_comm, log.getLogs_eq, count_filter_toNat]
    congr 2
    cases decide (r.fromBlock ≤ block e ∧ block e ≤ r.toBlock) <;> rfl

/-- If each event is asked for once for each of two tests that it passes, the answers
are the events that pass the one and those that pass the other. -/
theorem getLogs_perm_of_coverage {ranges : List BlockRange} {P Q : ε → Bool}
    (h : ∀ e ∈ log.history, coverage ranges (block e) = (P e).toNat + (Q e).toNat) :
    (ranges.flatMap fun r => log.getLogs r.fromBlock r.toBlock).Perm
      (log.history.filter P ++ log.history.filter Q) := by
  classical
  rw [List.perm_iff_count]
  intro e
  rw [count_flatMap_getLogs, List.count_append, count_filter_toNat, count_filter_toNat,
    ← Nat.add_mul]
  by_cases he : e ∈ log.history
  · rw [h e he]
  · rw [List.count_eq_zero.mpr he, Nat.mul_zero, Nat.mul_zero]

end EventLog
end CreamBots.Data
