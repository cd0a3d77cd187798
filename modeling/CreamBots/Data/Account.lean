import Mathlib.Algebra.BigOperators.Group.List.Basic
import Mathlib.Algebra.Order.Ring.Int
import Mathlib.Data.List.Induction

/-! Accounts that close.

An account is absent or holds a balance. A posting adds to the balance, an absent
account counting as zero, and closes the account when the new balance is `dead`.
Closing forgets the balance. If no dead balance but zero ever occurs nothing is
forgotten (`ClosesClean`), and the balance is the sum of the postings whatever
their order (`getD_postAll`). An account that holds no dead balance (`Live`) is
told by its balance alone. -/
namespace CreamBots.Data.Account
variable {M : Type} [AddCommMonoid M] (dead : M → Prop)

/-- No posting leaves a balance that is dead and not zero. -/
def ClosesClean (entry : Option M) (xs : List M) : Prop :=
  ∀ q, q <+: xs → q ≠ [] → dead (entry.getD 0 + q.sum) → entry.getD 0 + q.sum = 0

def Live (entry : Option M) : Prop := ∀ b, entry = some b → ¬dead b

variable {dead} {entry entry' : Option M} {xs ys : List M}

theorem ClosesClean.of_append (h : ClosesClean dead entry (xs ++ ys)) :
    ClosesClean dead entry xs :=
  fun q hq => h q (hq.trans (List.prefix_append ..))

omit [AddCommMonoid M] in
theorem live_none : Live dead (none : Option M) := fun b h => by cases h

theorem Live.eq_of_getD_eq (h : Live dead entry) (h' : Live dead entry') (hzero : dead (0 : M))
    (heq : entry.getD 0 = entry'.getD 0) : entry = entry' := by
  cases entry with
  | none =>
    cases entry' with
    | none => rfl
    | some b =>
      have hb : 0 = b := heq
      exact absurd (hb ▸ hzero) (h' b rfl)
  | some a =>
    cases entry' with
    | none =>
      have ha : a = 0 := heq
      exact absurd (ha ▸ hzero) (h a rfl)
    | some b => exact congrArg some heq

variable (dead) [DecidablePred dead]

def post (entry : Option M) (x : M) : Option M :=
  if dead (entry.getD 0 + x) then none else some (entry.getD 0 + x)

/-- The account after a list of postings. -/
def postAll (entry : Option M) (xs : List M) : Option M := xs.foldl (post dead) entry

variable {dead}

@[simp] theorem postAll_nil (entry : Option M) : postAll dead entry [] = entry := rfl

theorem postAll_append (xs ys : List M) :
    postAll dead entry (xs ++ ys) = postAll dead (postAll dead entry xs) ys :=
  List.foldl_append

theorem live_post (entry : Option M) (x : M) : Live dead (post dead entry x) := by
  intro b h
  rw [post] at h
  split at h
  · cases h
  · rename_i hb
    cases h
    exact hb

theorem Live.postAll (h : Live dead entry) (xs : List M) : Live dead (postAll dead entry xs) := by
  rcases List.eq_nil_or_concat' xs with rfl | ⟨before, x, rfl⟩
  · exact h
  · rw [postAll_append]
    exact live_post _ x

/-- The balance is the sum of what was posted. -/
theorem getD_postAll (h : ClosesClean dead entry xs) :
    (postAll dead entry xs).getD 0 = entry.getD 0 + xs.sum := by
  induction xs using List.reverseRecOn with
  | nil => simp
  | append_singleton xs x ih =>
    have hb : (postAll dead entry xs).getD 0 + x = entry.getD 0 + (xs ++ [x]).sum := by
      rw [ih h.of_append, List.sum_append, List.sum_singleton, add_assoc]
    rw [postAll_append]
    show (post dead (postAll dead entry xs) x).getD 0 = _
    rw [post, hb]
    split
    · rename_i hdead
      rw [h _ (List.prefix_refl _) (by simp) hdead, Option.getD_none]
    · rw [Option.getD_some]

/-- It is enough to look at each posting against the account it meets. -/
theorem closesClean_of_steps (h : ∀ q x, q ++ [x] <+: xs →
    dead ((postAll dead entry q).getD 0 + x) → (postAll dead entry q).getD 0 + x = 0) :
    ClosesClean dead entry xs := by
  induction xs using List.reverseRecOn with
  | nil =>
    intro q hq hne
    exact absurd (List.prefix_nil.mp hq) hne
  | append_singleton xs x ih =>
    have hxs := ih fun q y hq => h q y (hq.trans (List.prefix_append ..))
    intro q hq hne hdead
    rcases List.prefix_concat_iff.mp hq with rfl | hq
    · have hb : (postAll dead entry xs).getD 0 + x = entry.getD 0 + (xs ++ [x]).sum := by
        rw [getD_postAll hxs, List.sum_append, List.sum_singleton, add_assoc]
      rw [← hb] at hdead ⊢
      exact h xs x (List.prefix_refl _) hdead
    · exact hxs q hq hne hdead

end CreamBots.Data.Account
