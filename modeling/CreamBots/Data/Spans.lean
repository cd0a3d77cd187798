import Mathlib.Algebra.BigOperators.Ring.Finset
import Mathlib.Algebra.Order.BigOperators.Ring.Finset
import Mathlib.Tactic.Ring
import Mathlib.Tactic.SplitIfs

/-! Weights on ranges.

A span puts a weight on a range, its lower end included and its upper end not. The
`level` of a list of spans at a point is the weight of the spans that cover it. It
changes only at the ends of spans, by the `jump` there: what begins less what ends.
So the jumps up to a point add up to the level (`sum_jump`), and all jumps to zero
(`sum_jump_all`).

Weights may be negative as long as no range is short in total (`Backed`). Then no
level is negative, and a point with no weight ending at it (`held`) has no jump
(`Backed.jump_eq_zero`). Everything is a sum over spans of a number that depends on
the range alone (`weigh`), hence one over ranges of their totals (`weigh_eq_sum`). -/
namespace CreamBots.Data

structure Span (α R : Type) [LT α] where
  lo : α
  hi : α
  lo_lt_hi : lo < hi
  weight : R

namespace Span
variable {α R : Type} [LinearOrder α] [CommRing R]

/-- The weights of the spans, each as often as its range counts. -/
def weigh (c : α → α → R) (spans : List (Span α R)) : R :=
  (spans.map fun s => c s.lo s.hi * s.weight).sum

def level (spans : List (Span α R)) (x : α) : R :=
  weigh (fun lo hi => if lo ≤ x ∧ x < hi then 1 else 0) spans

def jump (spans : List (Span α R)) (x : α) : R :=
  weigh (fun lo hi => (if x = lo then 1 else 0) - (if x = hi then 1 else 0)) spans

/-- The weight of the spans that end at the point, below or above. -/
def held (spans : List (Span α R)) (x : α) : R :=
  weigh (fun lo hi => if x = lo ∨ x = hi then 1 else 0) spans

/-- The weight of one range. -/
def total (spans : List (Span α R)) (lo hi : α) : R :=
  weigh (fun lo' hi' => if lo' = lo ∧ hi' = hi then 1 else 0) spans

variable {c c' : α → α → R} {spans : List (Span α R)}

@[simp] theorem weigh_nil (c : α → α → R) : weigh c [] = 0 := rfl

theorem weigh_cons (c : α → α → R) (s : Span α R) (rest : List (Span α R)) :
    weigh c (s :: rest) = c s.lo s.hi * s.weight + weigh c rest := rfl

theorem weigh_congr (h : ∀ lo hi, lo < hi → c lo hi = c' lo hi) :
    weigh c spans = weigh c' spans := by
  induction spans with
  | nil => rfl
  | cons s rest ih => rw [weigh_cons, weigh_cons, ih, h s.lo s.hi s.lo_lt_hi]

theorem weigh_zero (spans : List (Span α R)) : weigh (fun _ _ => 0) spans = 0 := by
  induction spans with
  | nil => rfl
  | cons s rest ih => rw [weigh_cons, ih, zero_mul, add_zero]

/-! ### Jumps add up -/

/-- The jumps at the points where `P` holds, if they are among the points of `S`: a span
counts when it begins at such a point and counts back when it ends at one. -/
theorem sum_jump_filter {S : Finset α} (P : α → Prop) [DecidablePred P]
    (hS : ∀ s ∈ spans, s.lo ∈ S ∧ s.hi ∈ S) : ∑ x ∈ S with P x, jump spans x =
      weigh (fun lo hi => (if P lo then 1 else 0) - (if P hi then 1 else 0)) spans := by
  induction spans with
  | nil => exact Finset.sum_const_zero
  | cons s rest ih =>
    obtain ⟨hlo, hhi⟩ := hS s (List.mem_cons_self ..)
    have hpoint : ∀ y ∈ S, ∑ x ∈ S with P x, (if x = y then (1 : R) else 0) =
        if P y then 1 else 0 := by
      intro y hy
      rw [Finset.sum_ite_eq']
      simp [hy]
    simp only [jump, weigh_cons] at ih ⊢
    rw [Finset.sum_add_distrib, ih fun t ht => hS t (List.mem_cons_of_mem s ht), ← Finset.sum_mul,
      Finset.sum_sub_distrib, hpoint s.lo hlo, hpoint s.hi hhi]

/-- Points without a jump may be missing. -/
theorem sum_jump_support {S : Finset α} (P : α → Prop) [DecidablePred P]
    (hS : ∀ x, x ∉ S → jump spans x = 0) : ∑ x ∈ S with P x, jump spans x =
      weigh (fun lo hi => (if P lo then 1 else 0) - (if P hi then 1 else 0)) spans := by
  let ends : Finset α := (spans.map Span.lo ++ spans.map Span.hi).toFinset
  have hends : ∀ s ∈ spans, s.lo ∈ S ∪ ends ∧ s.hi ∈ S ∪ ends := by
    intro s hs
    have hlo : s.lo ∈ spans.map Span.lo := List.mem_map_of_mem hs
    have hhi : s.hi ∈ spans.map Span.hi := List.mem_map_of_mem hs
    refine ⟨Finset.mem_union_right _ ?_, Finset.mem_union_right _ ?_⟩
    · exact List.mem_toFinset.mpr (List.mem_append_left _ hlo)
    · exact List.mem_toFinset.mpr (List.mem_append_right _ hhi)
  rw [← sum_jump_filter P hends]
  apply Finset.sum_subset
  · exact Finset.filter_subset_filter P Finset.subset_union_left
  · intro x hx hnot
    apply hS
    intro hmem
    exact hnot (Finset.mem_filter.mpr ⟨hmem, (Finset.mem_filter.mp hx).2⟩)

/-- The jumps up to a point add up to its level. -/
theorem sum_jump {S : Finset α} (hS : ∀ x, x ∉ S → jump spans x = 0) (x : α) :
    ∑ y ∈ S with y ≤ x, jump spans y = level spans x := by
  rw [sum_jump_support (fun y => y ≤ x) hS, level]
  apply weigh_congr
  intro lo hi hlt
  by_cases hhi : hi ≤ x
  · rw [if_pos hhi, if_pos (hlt.le.trans hhi), if_neg fun h => h.2.not_ge hhi, sub_self]
  · rw [if_neg hhi, sub_zero]
    simp [not_le.mp hhi]

theorem sum_jump_all {S : Finset α} (hS : ∀ x, x ∉ S → jump spans x = 0) :
    ∑ x ∈ S, jump spans x = 0 := by
  have hall := sum_jump_support (fun _ => True) hS
  rw [Finset.filter_true] at hall
  rw [hall]
  simpa using weigh_zero spans

/-! ### Ranges that are not short -/

omit [CommRing R] in
theorem mem_ranges : ∀ s ∈ spans, (s.lo, s.hi) ∈ (spans.map fun s => (s.lo, s.hi)).toFinset :=
  fun _ hs => List.mem_toFinset.mpr (List.mem_map_of_mem hs)

theorem weigh_eq_sum (c : α → α → R) {ranges : Finset (α × α)}
    (hranges : ∀ s ∈ spans, (s.lo, s.hi) ∈ ranges) :
    weigh c spans = ∑ r ∈ ranges, c r.1 r.2 * total spans r.1 r.2 := by
  induction spans with
  | nil => simp [total]
  | cons s rest ih =>
    have hrange : ∑ r ∈ ranges, c r.1 r.2 * ((if s.lo = r.1 ∧ s.hi = r.2 then 1 else 0) * s.weight) =
        c s.lo s.hi * s.weight := by
      rw [Finset.sum_eq_single_of_mem (s.lo, s.hi) (hranges s (List.mem_cons_self ..))]
      · rw [if_pos ⟨rfl, rfl⟩, one_mul]
      · intro r _ hne
        rw [if_neg fun h => hne (Prod.ext h.1.symm h.2.symm), zero_mul, mul_zero]
    simp only [total, weigh_cons, mul_add] at ih ⊢
    rw [Finset.sum_add_distrib, hrange, ih fun t ht => hranges t (List.mem_cons_of_mem s ht)]

section Order
variable [LinearOrder R] [IsStrictOrderedRing R]

/-- No range has a negative weight in total. -/
def Backed (spans : List (Span α R)) : Prop := ∀ lo hi, 0 ≤ total spans lo hi

theorem Backed.weigh_nonneg (h : Backed spans) (hc : ∀ lo hi, 0 ≤ c lo hi) : 0 ≤ weigh c spans := by
  rw [weigh_eq_sum c mem_ranges]
  exact Finset.sum_nonneg fun r _ => mul_nonneg (hc r.1 r.2) (h r.1 r.2)

/-- What weighs nothing weighs nothing counted otherwise, unless ranges count that did not. -/
theorem Backed.weigh_eq_zero (h : Backed spans) (hc : ∀ lo hi, 0 ≤ c lo hi)
    (hzero : weigh c spans = 0) (himp : ∀ lo hi, c lo hi = 0 → c' lo hi = 0) :
    weigh c' spans = 0 := by
  rw [weigh_eq_sum c mem_ranges, Finset.sum_eq_zero_iff_of_nonneg fun r _ =>
    mul_nonneg (hc r.1 r.2) (h r.1 r.2)] at hzero
  rw [weigh_eq_sum c' mem_ranges]
  apply Finset.sum_eq_zero
  intro r hr
  rcases mul_eq_zero.mp (hzero r hr) with hr | hr
  · rw [himp r.1 r.2 hr, zero_mul]
  · rw [hr, mul_zero]

theorem Backed.level_nonneg (h : Backed spans) (x : α) : 0 ≤ level spans x :=
  h.weigh_nonneg fun lo hi => by split_ifs <;> simp

theorem Backed.held_nonneg (h : Backed spans) (x : α) : 0 ≤ held spans x :=
  h.weigh_nonneg fun lo hi => by split_ifs <;> simp

/-- Where no weight is held the level does not change. -/
theorem Backed.jump_eq_zero (h : Backed spans) {x : α} (hzero : held spans x = 0) :
    jump spans x = 0 := by
  refine h.weigh_eq_zero (fun lo hi => by split_ifs <;> simp) hzero fun lo hi hc => ?_
  have hnot : ¬(x = lo ∨ x = hi) := by
    intro hx
    rw [if_pos hx] at hc
    exact one_ne_zero hc
  rw [not_or] at hnot
  rw [if_neg hnot.1, if_neg hnot.2, sub_zero]

/-- Nothing is held at a point exactly when every range that ends there comes to nothing. -/
theorem Backed.held_eq_zero_iff (h : Backed spans) {x : α} :
    held spans x = 0 ↔ ∀ lo hi, x = lo ∨ x = hi → total spans lo hi = 0 := by
  refine ⟨fun hzero lo hi hx => ?_, fun hnone => ?_⟩
  · refine h.weigh_eq_zero (fun lo hi => by split_ifs <;> simp) hzero fun lo' hi' hc => ?_
    rw [if_neg]
    intro hsame
    rw [hsame.1, hsame.2, if_pos hx] at hc
    exact one_ne_zero hc
  · rw [held, weigh_eq_sum _ mem_ranges]
    apply Finset.sum_eq_zero
    intro r _
    by_cases hx : x = r.1 ∨ x = r.2
    · rw [hnone r.1 r.2 hx, mul_zero]
    · rw [if_neg hx, zero_mul]

end Order
end Span
end CreamBots.Data
