import Mathlib.Algebra.BigOperators.Group.List.Basic
import Mathlib.Algebra.Order.BigOperators.Group.List
import Mathlib.Algebra.Order.Group.Int
import Mathlib.Algebra.Order.Monoid.OrderDual
import Mathlib.Data.List.Sort

/-! Lists in the order of a key, and what a stable sort does to running totals.

An ordered list is cut in two by any predicate that holds of what comes first.
Sorting by a key (`sortBy`) keeps the order of elements with equal keys, so a
sort that is handed gains before losses applies, inside each key, the gains
first. No running total of it is then below every running total of the ordered
list (`prefix_dominated`): what is overdrawn after sorting was overdrawn before. -/
namespace CreamBots.Data
variable {ε κ : Type}

/-- What passes a predicate that is lost along the list comes first. -/
theorem filter_append_filter_not {P : ε → Bool} {l : List ε}
    (h : l.Pairwise fun a b => P b = true → P a = true) :
    l.filter P ++ l.filter (fun a => !P a) = l := by
  induction l with
  | nil => rfl
  | cons a rest ih =>
    rw [List.pairwise_cons] at h
    cases ha : P a with
    | true =>
      rw [List.filter_cons_of_pos ha, List.filter_cons_of_neg (by simp [ha]), List.cons_append,
        ih h.2]
    | false =>
      have hnone : ∀ b ∈ a :: rest, ¬P b = true := by
        intro b hb hPb
        rcases List.mem_cons.mp hb with rfl | hm
        · rw [ha] at hPb
          cases hPb
        · have := h.1 b hm hPb
          rw [ha] at this
          cases this
      rw [List.filter_eq_nil_iff.mpr hnone, List.nil_append, List.filter_eq_self]
      intro b hb
      simpa using hnone b hb

variable [LinearOrder κ]

/-- Python's `sorted` with a key. -/
def sortBy (key : ε → κ) (l : List ε) : List ε := l.insertionSort fun a b => key a ≤ key b

variable {key : ε → κ}

instance total_key : Std.Total fun a b : ε => key a ≤ key b := ⟨fun a b => le_total (key a) (key b)⟩

instance isTrans_key : IsTrans ε fun a b => key a ≤ key b := ⟨fun _ _ _ => le_trans⟩

theorem sortBy_perm (key : ε → κ) (l : List ε) : (sortBy key l).Perm l :=
  List.perm_insertionSort _ l

theorem sortBy_sorted (key : ε → κ) (l : List ε) :
    (sortBy key l).Pairwise fun a b => key a ≤ key b :=
  List.pairwise_insertionSort _ l

theorem sortBy_sublist (key : ε → κ) {l l' : List ε} (h : l.Sublist l') :
    (sortBy key l).Sublist (sortBy key l') := by
  induction h with
  | slnil => exact .refl _
  | cons a _ ih => exact ih.trans (List.sublist_orderedInsert a _)
  | cons_cons a _ ih => exact List.Sublist.orderedInsert_sublist a ih (sortBy_sorted key _)

/-- Stability: what is left out does not change how the rest is sorted. -/
theorem sortBy_filter (key : ε → κ) (P : ε → Bool) (l : List ε) :
    (sortBy key l).filter P = sortBy key (l.filter P) := by
  symm
  have hfilter := (sortBy_sublist key (List.filter_sublist (p := P) (l := l))).filter P
  rw [List.filter_eq_self.mpr fun a ha =>
    (List.mem_filter.mp ((sortBy_perm key _).subset ha)).2] at hfilter
  apply hfilter.eq_of_length
  rw [(sortBy_perm key _).length_eq, ((sortBy_perm key l).filter P).length_eq]

/-- Elements of one key keep their order. -/
theorem filter_sortBy (key : ε → κ) (l : List ε) (k : κ) :
    (sortBy key l).filter (fun a => decide (key a = k)) = l.filter fun a => decide (key a = k) := by
  rw [sortBy_filter]
  apply List.Pairwise.insertionSort_eq
  apply List.pairwise_of_forall_mem_list
  intro a ha b hb
  rw [of_decide_eq_true (List.mem_filter.mp ha).2, of_decide_eq_true (List.mem_filter.mp hb).2]

/-- Where no two elements have one key, the order of the list does not matter. -/
theorem sortBy_eq_of_perm {l l' : List ε} (hperm : l.Perm l') (hkeys : (l.map key).Nodup) :
    sortBy key l = sortBy key l' := by
  have hsorted : (sortBy key l).Perm (sortBy key l') :=
    ((sortBy_perm key l).trans hperm).trans (sortBy_perm key l').symm
  refine List.Perm.eq_of_pairwise (fun a b ha hb hab hba => ?_) (sortBy_sorted key l)
    (sortBy_sorted key l') hsorted
  have ha : a ∈ l := (sortBy_perm key l).mem_iff.mp ha
  have hb : b ∈ l := hperm.mem_iff.mpr ((sortBy_perm key l').mem_iff.mp hb)
  exact List.inj_on_of_nodup_map hkeys ha hb (le_antisymm hab hba)

/-- What has smaller keys is sorted by itself. -/
theorem sortBy_split {P : ε → Bool} (hP : ∀ a b, key a ≤ key b → P b = true → P a = true)
    (l : List ε) : sortBy key l = sortBy key (l.filter P) ++ sortBy key (l.filter fun a => !P a) := by
  rw [← sortBy_filter, ← sortBy_filter]
  exact (filter_append_filter_not ((sortBy_sorted key l).imp fun h => hP _ _ h)).symm

/-- A list up to its largest key: what is below it and what is at it. -/
theorem below_append_at_perm {l : List ε} {k : κ} (h : ∀ a ∈ l, key a ≤ k) :
    ((l.filter fun a => decide (key a < k)) ++ (l.filter fun a => decide (key a = k))).Perm l := by
  have hat : (l.filter fun a => decide (key a = k)) = l.filter fun a => !decide (key a < k) := by
    apply List.filter_congr
    intro a ha
    rw [← decide_not, decide_eq_decide, not_lt]
    exact ⟨fun hk => hk.ge, fun hk => le_antisymm (h a ha) hk⟩
  rw [hat]
  exact List.filter_append_perm _ l

/-- What is at a key or below it. -/
theorem filter_le_perm (c : List ε) (k : κ) :
    (c.filter fun a => decide (key a ≤ k)).Perm
      ((c.filter fun a => decide (key a < k)) ++ c.filter fun a => decide (key a = k)) := by
  have h : ∀ a ∈ c.filter (fun a => decide (key a ≤ k)), key a ≤ k :=
    fun a ha => of_decide_eq_true (List.mem_filter.mp ha).2
  have hlt : ∀ a, (decide (key a < k) && decide (key a ≤ k)) = decide (key a < k) :=
    fun a => by simpa using le_of_lt
  have heq : ∀ a, (decide (key a = k) && decide (key a ≤ k)) = decide (key a = k) :=
    fun a => by simpa using le_of_eq
  have hperm := below_append_at_perm h
  simp only [List.filter_filter, hlt, heq] at hperm
  exact hperm.symm

/-- What an ordered list holds up to a key, without it or with it, is a prefix. -/
theorem filter_isPrefix {c : List ε} (hc : c.Pairwise fun a b => key a ≤ key b) (P : ε → Bool)
    (hP : ∀ a b, key a ≤ key b → P b = true → P a = true) : c.filter P <+: c :=
  ⟨_, filter_append_filter_not (hc.imp fun hab => hP _ _ hab)⟩

/-! ### Running totals -/

section Totals
variable {G : Type} [AddCommGroup G] [LinearOrder G] [IsOrderedAddMonoid G] {w : ε → G}

/-- Gains add up to something, or nothing moved. -/
theorem sum_gains {l : List ε} (hw : ∀ e ∈ l, 0 ≤ w e) :
    0 ≤ (l.map w).sum ∧ ((l.map w).sum = 0 → l.filter (fun e => decide (w e ≠ 0)) = []) := by
  have hmap : ∀ x ∈ l.map w, 0 ≤ x := by
    intro x hx
    obtain ⟨e, he, rfl⟩ := List.mem_map.mp hx
    exact hw e he
  refine ⟨List.sum_nonneg hmap, fun h => ?_⟩
  rw [List.filter_eq_nil_iff]
  intro e he
  simpa using List.all_zero_of_le_zero_le_of_sum_eq_zero hmap h (List.mem_map.mpr ⟨e, he, rfl⟩)

/-- Gains on top of a list raise its total, unless they move nothing. -/
theorem total_le_of_gains {p q rest : List ε} (hperm : p.Perm (q ++ rest))
    (hw : ∀ e ∈ rest, 0 ≤ w e) :
    (q.map w).sum ≤ (p.map w).sum ∧ ((q.map w).sum = (p.map w).sum →
      (q.filter fun e => decide (w e ≠ 0)).Perm (p.filter fun e => decide (w e ≠ 0))) := by
  obtain ⟨hpos, hzero⟩ := sum_gains hw
  have hsum := (hperm.map w).sum_eq
  rw [List.map_append, List.sum_append] at hsum
  refine ⟨?_, fun heq => ?_⟩
  · rw [hsum]
    exact le_add_of_nonneg_right hpos
  · have hmoved := hperm.filter fun e => decide (w e ≠ 0)
    rw [List.filter_append, hzero (left_eq_add.mp (heq.trans hsum)), List.append_nil] at hmoved
    exact hmoved.symm

/-- The same upside down: losses that are missing from a list. -/
theorem total_le_of_losses {p q rest : List ε} (hperm : q.Perm (p ++ rest))
    (hw : ∀ e ∈ rest, w e ≤ 0) :
    (q.map w).sum ≤ (p.map w).sum ∧ ((q.map w).sum = (p.map w).sum →
      (q.filter fun e => decide (w e ≠ 0)).Perm (p.filter fun e => decide (w e ≠ 0))) := by
  have h := total_le_of_gains (G := Gᵒᵈ) hperm hw
  exact ⟨h.1, fun heq => (h.2 heq.symm).symm⟩

/-- Where a prefix `p` of the sorted list stands, `k` being its last key: below `k`
it holds what the ordered list `c` holds, and at `k` a prefix of what was handed in. -/
theorem prefix_sortBy {s c p : List ε} {x : ε} (hs : s.Perm c) (hp : p ++ [x] <+: sortBy key s) :
    (∀ a ∈ p ++ [x], key a ≤ key x) ∧
      ((p ++ [x]).filter fun a => decide (key a < key x)).Perm
        (c.filter fun a => decide (key a < key x)) ∧
      ((p ++ [x]).filter fun a => decide (key a = key x)) <+:
        s.filter fun a => decide (key a = key x) := by
  obtain ⟨after, hafter⟩ := hp
  have hsorted := sortBy_sorted key s
  rw [← hafter, List.pairwise_append] at hsorted
  refine ⟨?_, ?_, ?_⟩
  · intro a ha
    rcases List.mem_append.mp ha with hb | hx
    · exact (List.pairwise_append.mp hsorted.1).2.2 a hb x (List.mem_singleton.mpr rfl)
    · rw [List.mem_singleton.mp hx]
  · have hnone : after.filter (fun a => decide (key a < key x)) = [] := by
      rw [List.filter_eq_nil_iff]
      intro a ha hlt
      exact absurd (of_decide_eq_true hlt) (not_lt.mpr (hsorted.2.2 x (by simp) a ha))
    have hperm := ((sortBy_perm key s).trans hs).filter fun a => decide (key a < key x)
    rw [← hafter, List.filter_append, hnone, List.append_nil] at hperm
    exact hperm
  · rw [← filter_sortBy key s, ← hafter, List.filter_append (p ++ [x])]
    exact List.prefix_append ..

/-- Every running total of the sorted list, gains handed in first, is reached from
above: some running total of the ordered list is no larger, and where they are
equal the same elements moved. -/
theorem prefix_dominated {gain : ε → Bool} {c : List ε}
    (hc : c.Pairwise fun a b => key a ≤ key b) (hgain : ∀ e ∈ c, gain e = true → 0 ≤ w e)
    (hloss : ∀ e ∈ c, gain e = false → w e ≤ 0)
    {p : List ε} (hp : p <+: sortBy key (c.filter gain ++ c.filter fun e => !gain e)) :
    ∃ q, q <+: c ∧ (q.map w).sum ≤ (p.map w).sum ∧ ((q.map w).sum = (p.map w).sum →
      (q.filter fun e => decide (w e ≠ 0)).Perm (p.filter fun e => decide (w e ≠ 0))) := by
  rcases List.eq_nil_or_concat' p with rfl | ⟨before, x, rfl⟩
  · exact ⟨[], List.nil_prefix, le_refl _, fun _ => List.Perm.refl _⟩
  obtain ⟨hle, hbelow, rest, hat⟩ := prefix_sortBy (List.filter_append_perm gain c) hp
  generalize before ++ [x] = p at hle hbelow hat
  have hcut := below_append_at_perm hle
  rcases List.append_eq_append_iff.mp (hat.trans (List.filter_append ..)) with
    ⟨gains, hg, _⟩ | ⟨losses, _, hl⟩
  · -- Only gains at the last key: compare with what the ordered list holds below it.
    have hgains : ∀ e ∈ p.filter fun a => decide (key a = key x), 0 ≤ w e := by
      intro e he
      have he' := hg ▸ List.mem_append_left gains he
      rw [List.mem_filter, List.mem_filter] at he'
      exact hgain e he'.1.1 he'.1.2
    exact ⟨_, filter_isPrefix hc (fun a => decide (key a < key x)) fun a b hab hb =>
      decide_eq_true (lt_of_le_of_lt hab (of_decide_eq_true hb)),
      total_le_of_gains (hcut.symm.trans (hbelow.append_right _)) hgains⟩
  · -- All gains of the last key are in: what is missing are losses.
    have hlosses : ∀ e ∈ rest, w e ≤ 0 := by
      intro e he
      have he' := hl ▸ List.mem_append_right losses he
      rw [List.mem_filter, List.mem_filter] at he'
      exact hloss e he'.1.1 (by simpa using he'.1.2)
    have hperm : (c.filter fun a => decide (key a ≤ key x)).Perm (p ++ rest) := by
      have hc' := (List.filter_append_perm gain c).filter fun a => decide (key a = key x)
      rw [← hat] at hc'
      refine ((filter_le_perm c (key x)).trans (hbelow.symm.append hc'.symm)).trans ?_
      rw [← List.append_assoc]
      exact hcut.append_right _
    exact ⟨_, filter_isPrefix hc (fun a => decide (key a ≤ key x)) fun a b hab hb =>
      decide_eq_true (le_trans hab (of_decide_eq_true hb)), total_le_of_losses hperm hlosses⟩

end Totals
end CreamBots.Data
