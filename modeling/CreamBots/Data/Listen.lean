import Mathlib.Data.List.Basic

/-! Loops that an exception ends, and listening to a stream.

`for`, and `async for` alike, hands one message after the other to its body and ends with
the first on which the body raises. With `while True` around a `try` around it, it is
started again with the next message: then the body is run on every message, whatever it
raises (`relisten_fst`), and nothing is caught exactly if the first loop comes to the end
of the stream (`caught_eq_nil`). -/
namespace CreamBots.Data
section Listen
variable {σ μ ε : Type} (body : σ → μ → σ × Option ε)

/-- The body, on one message after the other, for all it raises. -/
def handleAll (s : σ) (messages : List μ) : σ := messages.foldl (fun s message => (body s message).1) s

/-- `for`: if an exception leaves it, that exception and what is still to come. -/
def forEach (s : σ) : List μ → σ × Option (ε × List μ)
  | [] => (s, none)
  | message :: rest =>
    match body s message with
    | (s, none) => forEach s rest
    | (s, some e) => (s, some (e, rest))

variable {body}

@[simp] theorem handleAll_nil (s : σ) : handleAll body s [] = s := rfl

@[simp] theorem handleAll_cons (s : σ) (message : μ) (rest : List μ) :
    handleAll body s (message :: rest) = handleAll body (body s message).1 rest := rfl

theorem handleAll_append (s : σ) (before after : List μ) :
    handleAll body s (before ++ after) = handleAll body (handleAll body s before) after :=
  List.foldl_append

/-- The loop comes to its end. -/
theorem forEach_cons_eq_none {s final : σ} {message : μ} {rest : List μ} :
    forEach body s (message :: rest) = (final, none) ↔
      ∃ next, body s message = (next, none) ∧ forEach body next rest = (final, none) := by
  rw [forEach]
  rcases body s message with ⟨next, _ | e⟩
  · simp
  · simp

/-- What a round does not establish, the loop does not. -/
theorem of_forEach {P : σ → Prop} (hstep : ∀ s message, P (body s message).1 → P s) {s : σ}
    {messages : List μ} (h : P (forEach body s messages).1) : P s := by
  induction messages generalizing s with
  | nil => exact h
  | cons message rest ih =>
    apply hstep s message
    rw [forEach] at h
    cases hbody : body s message with
    | mk next raised =>
      rw [hbody] at h
      cases raised with
      | none => exact ih h
      | some e => exact h

/-- The states in which the loop meets its messages: the first, and those of the rest. -/
theorem forall_met_cons {bad : σ → μ → Prop} {s : σ} {message : μ} {rest : List μ} :
    (∀ before m after, message :: rest = before ++ m :: after →
        ∀ s', forEach body s before = (s', none) → ¬bad s' m) ↔
      ¬bad s message ∧ ∀ next, body s message = (next, none) →
        ∀ before m after, rest = before ++ m :: after →
          ∀ s', forEach body next before = (s', none) → ¬bad s' m := by
  constructor
  · intro h
    refine ⟨h [] message rest rfl s rfl, ?_⟩
    intro next hnext before m after hsplit s' hs'
    subst hsplit
    exact h (message :: before) m after rfl s' (forEach_cons_eq_none.mpr ⟨next, hnext, hs'⟩)
  · intro hboth before m after hsplit s' hs'
    obtain ⟨hfirst, hrest⟩ := hboth
    cases before with
    | nil =>
      cases hsplit
      cases hs'
      exact hfirst
    | cons _ before =>
      cases hsplit
      obtain ⟨next, hnext, hs'⟩ := forEach_cons_eq_none.mp hs'
      exact hrest next hnext before m after rfl s' hs'

/-- Where a round spoils something just in a bad state, the loop does if it comes to one. -/
theorem forEach_iff {P : σ → Prop} {bad : σ → μ → Prop}
    (hstep : ∀ s message, P (body s message).1 ↔ P s ∧ ¬bad s message) (messages : List μ) (s : σ) :
    P (forEach body s messages).1 ↔ P s ∧ ∀ before message after,
      messages = before ++ message :: after →
        ∀ s', forEach body s before = (s', none) → ¬bad s' message := by
  induction messages generalizing s with
  | nil => simp [forEach]
  | cons message rest ih =>
    have hfirst := hstep s message
    rw [forEach, forall_met_cons, ← and_assoc, ← hfirst]
    cases body s message with
    | mk next raised =>
      cases raised with
      | none =>
        rw [ih]
        refine and_congr_right fun _ => ⟨fun h next' hnext => ?_, fun h => h next rfl⟩
        cases hnext
        exact h
      | some e =>
        refine ⟨fun h => ⟨h, fun next' hnext => ?_⟩, And.left⟩
        cases hnext

theorem rest_length_lt {s s' : σ} {messages rest : List μ} {e : ε}
    (h : forEach body s messages = (s', some (e, rest))) : rest.length < messages.length := by
  induction messages generalizing s with
  | nil => cases h
  | cons message messages ih =>
    rw [forEach] at h
    split at h
    · exact Nat.lt_succ_of_lt (ih h)
    · cases h
      exact Nat.lt_succ_self _

variable (body) in
/-- `while True` around it, over a stream that ends, and the exceptions that are caught. -/
def relisten (s : σ) (messages : List μ) : σ × List ε :=
  match _h : forEach body s messages with
  | (s, none) => (s, [])
  | (s, some (e, rest)) => ((relisten s rest).1, e :: (relisten s rest).2)
termination_by messages.length
decreasing_by exact rest_length_lt _h

/-- Up to where it is left `for` handles all; what is to come is handled after. -/
theorem handleAll_forEach (s : σ) (messages : List μ) : handleAll body s messages =
    match forEach body s messages with
    | (s, none) => s
    | (s, some (_, rest)) => handleAll body s rest := by
  induction messages generalizing s with
  | nil => rfl
  | cons message messages ih =>
    rw [handleAll_cons, forEach]
    cases hbody : body s message with
    | mk next raised =>
      cases raised with
      | none => exact ih next
      | some e => rfl

/-- What a body raises costs no other message anything. -/
theorem relisten_fst (s : σ) (messages : List μ) :
    (relisten body s messages).1 = handleAll body s messages := by
  induction s, messages using relisten.induct body with
  | case1 s messages next h => rw [relisten, handleAll_forEach, h]
  | case2 s messages next e rest h ih =>
    rw [relisten, handleAll_forEach, h]
    exact ih

theorem caught_eq_nil {s : σ} {messages : List μ} :
    (relisten body s messages).2 = [] ↔ (forEach body s messages).2 = none := by
  rw [relisten]
  split
  · rename_i h
    rw [h]
    exact iff_of_true rfl rfl
  · rename_i h
    rw [h]
    exact iff_of_false (List.cons_ne_nil _ _) (Option.some_ne_none _)

/-- Where it is known, in the states that are met, which messages raise. -/
theorem forEach_none_iff {Inv : σ → Prop} (hkeeps : ∀ s message, Inv s → Inv (body s message).1)
    {raises : μ → Prop} {messages : List μ}
    (hraises : ∀ s, Inv s → ∀ message ∈ messages, (body s message).2 = none ↔ ¬raises message) {s : σ}
    (hs : Inv s) :
    (forEach body s messages).2 = none ↔ ∀ message ∈ messages, ¬raises message := by
  induction messages generalizing s with
  | nil => exact iff_of_true rfl (fun _ hmem => absurd hmem List.not_mem_nil)
  | cons message rest ih =>
    have hfirst := hraises s hs message (List.mem_cons_self ..)
    have hnext := hkeeps s message hs
    rw [forEach, List.forall_mem_cons, ← hfirst]
    cases hbody : body s message with
    | mk next raised =>
      rw [hbody] at hnext
      cases raised with
      | none =>
        rw [ih (fun s hs m hm => hraises s hs m (List.mem_cons_of_mem _ hm)) hnext]
        exact ⟨fun h => ⟨rfl, h⟩, And.right⟩
      | some e => exact iff_of_false (Option.some_ne_none _) fun h => Option.some_ne_none e h.1

/-- Left at the first message that raises, before anything was done for it. -/
theorem forEach_fst {raises : μ → Bool}
    (hquiet : ∀ s message, raises message = false → (body s message).2 = none)
    (hraises : ∀ s message, raises message = true → ∃ e, body s message = (s, some e)) (s : σ)
    (messages : List μ) :
    (forEach body s messages).1 =
      handleAll body s (messages.takeWhile fun message => !raises message) := by
  induction messages generalizing s with
  | nil => rfl
  | cons message rest ih =>
    rw [forEach, List.takeWhile_cons]
    cases hmessage : raises message with
    | true =>
      obtain ⟨e, he⟩ := hraises s message hmessage
      rw [he]
      rfl
    | false =>
      have hnone := hquiet s message hmessage
      rw [Bool.not_false, if_pos rfl, handleAll_cons]
      cases hbody : body s message with
      | mk next raised =>
        rw [hbody] at hnone
        cases hnone
        exact ih next

end Listen
end CreamBots.Data
