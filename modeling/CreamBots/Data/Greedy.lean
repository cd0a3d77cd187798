import Mathlib.Algebra.BigOperators.Group.List.Basic
import Mathlib.Algebra.Order.BigOperators.Group.List
import Mathlib.Algebra.Order.Ring.Int
import Mathlib.Data.List.Perm.Subperm
import Mathlib.Tactic.Ring

/-! Greedy selection.

Take the first element, drop what conflicts with it, go on with the rest. Nothing that
is taken conflicts with what was taken before it (`greedy_pairwise`), and what is not
taken was dropped by something that stands before it (`mem_greedy_or_blocked`). On a list
in descending order of weight that bounds what any other choice is worth: every element
of it is charged to the one that dropped it, and if none is charged with more than `k`,
the choice is worth at most `k` times the greedy one (`sum_le_of_charged`). -/
namespace CreamBots.Data
variable {α β γ : Type} (conflict : α → α → Bool)

/-- What does not conflict with `a`. -/
def compatible (a : α) (l : List α) : List α := l.filter fun b => !conflict a b

theorem compatible_length_le (a : α) (l : List α) : (compatible conflict a l).length ≤ l.length :=
  List.length_filter_le ..

def greedy : List α → List α
  | [] => []
  | a :: rest => a :: greedy (compatible conflict a rest)
termination_by l => l.length
decreasing_by exact Nat.lt_succ_of_le (compatible_length_le ..)

/-- If the rest conflicts with the first, the first is all there is. -/
theorem greedy_cons_of_forall {a : α} {rest : List α} (h : ∀ b ∈ rest, conflict a b = true) :
    greedy conflict (a :: rest) = [a] := by
  have hnone : compatible conflict a rest = [] :=
    List.filter_eq_nil_iff.mpr fun b hb => by simp [h b hb]
  rw [greedy, hnone, greedy]

theorem greedy_subset (l : List α) : greedy conflict l ⊆ l := by
  induction l using greedy.induct conflict with
  | case1 => simp [greedy]
  | case2 a rest ih =>
    rw [greedy]
    intro b hb
    rcases List.mem_cons.mp hb with rfl | hb
    · exact List.mem_cons_self ..
    · exact List.mem_cons_of_mem _ (List.mem_of_mem_filter (ih hb))

/-- Selecting by what elements stand for. -/
theorem greedy_map (f : β → α) (l : List β) :
    greedy conflict (l.map f) = (greedy (fun b b' => conflict (f b) (f b')) l).map f := by
  induction l using greedy.induct (fun b b' => conflict (f b) (f b')) with
  | case1 => simp [greedy]
  | case2 b rest ih =>
    have hcompatible : compatible conflict (f b) (rest.map f) =
        (compatible (fun b b' => conflict (f b) (f b')) b rest).map f := List.filter_map
    rw [List.map_cons, greedy, hcompatible, ih, greedy, List.map_cons]

/-! ### What is taken and what is dropped -/

variable {conflict} in
theorem mem_compatible {a b : α} {l : List α} :
    b ∈ compatible conflict a l ↔ b ∈ l ∧ conflict a b = false := by
  rw [compatible, List.mem_filter, Bool.not_eq_true']

theorem greedy_pairwise (l : List α) :
    (greedy conflict l).Pairwise fun a b => conflict a b = false := by
  induction l using greedy.induct conflict with
  | case1 => simp [greedy]
  | case2 a rest ih =>
    rw [greedy, List.pairwise_cons]
    exact ⟨fun b hb => (mem_compatible.mp (greedy_subset conflict _ hb)).2, ih⟩

/-- What is not taken conflicts with something taken that stands before it. -/
theorem mem_greedy_or_blocked {R : α → α → Prop} {l : List α} (hl : l.Pairwise R) {b : α}
    (hb : b ∈ l) :
    b ∈ greedy conflict l ∨ ∃ a ∈ greedy conflict l, R a b ∧ conflict a b = true := by
  induction l using greedy.induct conflict with
  | case1 => cases hb
  | case2 a rest ih =>
    rw [List.pairwise_cons] at hl
    rw [greedy]
    rcases List.mem_cons.mp hb with rfl | hrest
    · exact .inl (List.mem_cons_self ..)
    · cases hconflict : conflict a b with
      | true => exact .inr ⟨a, List.mem_cons_self .., hl.1 b hrest, hconflict⟩
      | false =>
        rcases ih (hl.2.sublist List.filter_sublist) (mem_compatible.mpr ⟨hrest, hconflict⟩) with
          htaken | ⟨c, hc, hblocked⟩
        · exact .inl (List.mem_cons_of_mem a htaken)
        · exact .inr ⟨c, List.mem_cons_of_mem a hc, hblocked⟩

/-! ### What a greedy choice is worth -/

/-- Elements that touch different things of a list are no more than there are things. -/
theorem length_le_of_disjoint (touches : α → γ → Prop) {l : List α} {things : List γ}
    (hdisjoint : l.Pairwise fun a b => ∀ x, touches a x → ¬touches b x)
    (htouch : ∀ a ∈ l, ∃ x ∈ things, touches a x) : l.length ≤ things.length := by
  rcases l.eq_nil_or_concat with rfl | ⟨_, last, hlast⟩
  · exact Nat.zero_le _
  obtain ⟨x, _⟩ := htouch last (by simp [hlast])
  have : Nonempty γ := ⟨x⟩
  choose! thing hthing htouches using htouch
  have hnodup : (l.map thing).Nodup := by
    rw [List.Nodup, List.pairwise_map]
    apply hdisjoint.imp_of_mem
    intro a b ha hb hab hsame
    exact hab (thing a) (htouches a ha) (hsame ▸ htouches b hb)
  have hsubset : l.map thing ⊆ things := by
    intro x hx
    obtain ⟨a, ha, rfl⟩ := List.mem_map.mp hx
    exact hthing a ha
  calc l.length = (l.map thing).length := (List.length_map thing).symm
    _ ≤ things.length := (hnodup.subperm hsubset).length_le

/-- A list that is dropped by one element is worth at most that element for each. -/
theorem sum_le_of_dropped {weight : α → Int} {a : α} {k : Nat} {dropped : List α}
    (hlength : dropped.length ≤ k) (hnonneg : 0 ≤ weight a)
    (hle : ∀ b ∈ dropped, weight b ≤ weight a) : (dropped.map weight).sum ≤ k * weight a := by
  have hsum : (dropped.map weight).sum ≤ (dropped.map weight).length • weight a := by
    apply List.sum_le_card_nsmul
    intro w hw
    obtain ⟨b, hb, rfl⟩ := List.mem_map.mp hw
    exact hle b hb
  rw [List.length_map, nsmul_eq_mul] at hsum
  refine hsum.trans (mul_le_mul_of_nonneg_right ?_ hnonneg)
  exact_mod_cast hlength

/-- The charging argument. In a list of descending weights, charge each element of a
choice to the first taken element that conflicts with it: if no element of the list
conflicts with more than `k` of the choice, the choice is worth at most `k` times what
is taken. -/
theorem sum_le_of_charged (weight : α → Int) {k : Nat} {l choice : List α}
    (hsorted : l.Pairwise fun a b => weight b ≤ weight a) (hnonneg : ∀ a ∈ l, 0 ≤ weight a)
    (hself : ∀ a ∈ l, conflict a a = true) (hchoice : choice ⊆ l)
    (hcharged : ∀ a ∈ l, (choice.filter (conflict a)).length ≤ k) :
    (choice.map weight).sum ≤ k * ((greedy conflict l).map weight).sum := by
  induction l using greedy.induct conflict generalizing choice with
  | case1 =>
    rw [List.subset_nil.mp hchoice]
    simp [greedy]
  | case2 a rest ih =>
    have hfirst : a ∈ a :: rest := List.mem_cons_self ..
    rw [List.pairwise_cons] at hsorted
    have hrest : ∀ b ∈ compatible conflict a rest, b ∈ a :: rest :=
      fun b hb => List.mem_cons_of_mem a (mem_compatible.mp hb).1
    -- Those that conflict with the first are charged to it.
    have hdropped : ((choice.filter (conflict a)).map weight).sum ≤ k * weight a := by
      apply sum_le_of_dropped (hcharged a hfirst) (hnonneg a hfirst)
      intro b hb
      rcases List.mem_cons.mp (hchoice (List.mem_of_mem_filter hb)) with rfl | hb
      · exact Int.le_refl _
      · exact hsorted.1 b hb
    -- The others are a choice from what is left.
    have hleft : ((compatible conflict a choice).map weight).sum ≤
        k * ((greedy conflict (compatible conflict a rest)).map weight).sum := by
      apply ih (hsorted.2.sublist List.filter_sublist) (fun b hb => hnonneg b (hrest b hb))
        (fun b hb => hself b (hrest b hb))
      · intro b hb
        obtain ⟨hb, hcompatible⟩ := mem_compatible.mp hb
        refine mem_compatible.mpr ⟨?_, hcompatible⟩
        rcases List.mem_cons.mp (hchoice hb) with rfl | hb
        · rw [hself b hfirst] at hcompatible
          cases hcompatible
        · exact hb
      · intro b hb
        refine le_trans ?_ (hcharged b (hrest b hb))
        exact (List.filter_sublist.filter _).length_le
    calc (choice.map weight).sum
        = ((choice.filter (conflict a)).map weight).sum +
            ((compatible conflict a choice).map weight).sum := by
          rw [← List.sum_append, ← List.map_append]
          exact (((List.filter_append_perm (conflict a) choice).map weight).sum_eq).symm
      _ ≤ k * weight a + k * ((greedy conflict (compatible conflict a rest)).map weight).sum :=
          add_le_add hdropped hleft
      _ = k * ((greedy conflict (a :: rest)).map weight).sum := by
          rw [greedy, List.map_cons, List.sum_cons]
          ring

end CreamBots.Data
