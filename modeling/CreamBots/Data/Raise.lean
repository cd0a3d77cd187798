import Mathlib.Data.List.Basic

/-! Exceptions, and loops whose body may raise one. -/
namespace CreamBots.Data

/-- The exceptions that the modelled code raises or lets through. -/
inductive PyError where
  | assertionError (message : String)
  | attributeError
  | externalUpdateError
  | indexError
  | keyError
  | managerError
  | networkXError
  | requestError
  | typeError
  | unboundLocalError (name : String)
  | valueError
  | exception (message : String)
deriving DecidableEq

variable {α β ε : Type}

/-- What it takes for two steps to succeed. -/
theorem bind_eq_ok {e : Except ε α} {f : α → Except ε β} {b : β} :
    e >>= f = .ok b ↔ ∃ a, e = .ok a ∧ f a = .ok b := by
  cases e with
  | error _ =>
    refine ⟨fun h => ?_, fun ⟨a, h, _⟩ => ?_⟩
    · cases h
    · cases h
  | ok a =>
    refine ⟨fun h => ⟨a, rfl, h⟩, fun ⟨a', ha, h⟩ => ?_⟩
    cases ha
    exact h

theorem exists_bind_eq_ok {e : Except ε α} {f : α → Except ε β} {a : α} (he : e = .ok a)
    (hf : ∃ b, f a = .ok b) : ∃ b, e >>= f = .ok b := by
  obtain ⟨b, hb⟩ := hf
  exact ⟨b, bind_eq_ok.mpr ⟨a, he, hb⟩⟩

/-- A comprehension none of whose elements raises is the plain one. -/
theorem mapM_ok {f : α → Except ε β} {g : α → β} {l : List α} (h : ∀ x ∈ l, f x = .ok (g x)) :
    l.mapM f = .ok (l.map g) := by
  induction l with
  | nil => rfl
  | cons x rest ih =>
    rw [List.mapM_cons, h x (List.mem_cons_self ..), ih fun y hy => h y (List.mem_cons_of_mem x hy)]
    rfl

theorem exists_mapM_ok {f : α → Except ε β} {l : List α} (h : ∀ x ∈ l, ∃ y, f x = .ok y) :
    ∃ ys, l.mapM f = .ok ys := by
  induction l with
  | nil => exact ⟨[], rfl⟩
  | cons x rest ih =>
    obtain ⟨y, hy⟩ := h x (List.mem_cons_self ..)
    obtain ⟨ys, hys⟩ := ih fun x' hx' => h x' (List.mem_cons_of_mem x hx')
    refine ⟨y :: ys, ?_⟩
    rw [List.mapM_cons, hy, hys]
    rfl

/-- A loop none of whose rounds raises is the plain loop. -/
theorem foldlM_ok {f : β → α → Except ε β} {g : β → α → β} {l : List α} (s : β)
    (h : ∀ s, ∀ x ∈ l, f s x = .ok (g s x)) : l.foldlM f s = .ok (l.foldl g s) := by
  induction l generalizing s with
  | nil => rfl
  | cons x rest ih =>
    rw [List.foldlM_cons, h s x (List.mem_cons_self ..)]
    exact ih (g s x) fun s y hy => h s y (List.mem_cons_of_mem x hy)

/-- A loop none of whose rounds raises ends. -/
theorem exists_foldlM_ok {f : β → α → Except ε β} {l : List α} (s : β)
    (h : ∀ s, ∀ x ∈ l, ∃ s', f s x = .ok s') : ∃ s', l.foldlM f s = .ok s' := by
  induction l generalizing s with
  | nil => exact ⟨s, rfl⟩
  | cons x rest ih =>
    obtain ⟨s', hs'⟩ := h s x (List.mem_cons_self ..)
    rw [List.foldlM_cons, hs']
    exact ih s' fun s y hy => h s y (List.mem_cons_of_mem x hy)

/-- What every round keeps, a loop that does not raise keeps. -/
theorem foldlM_keeps {f : β → α → Except ε β} {P : β → Prop}
    (h : ∀ s x s', P s → f s x = .ok s' → P s') {l : List α} {s s' : β} (hs : P s)
    (hl : l.foldlM f s = .ok s') : P s' := by
  induction l generalizing s with
  | nil =>
    cases hl
    exact hs
  | cons x rest ih =>
    rw [List.foldlM_cons] at hl
    obtain ⟨next, hnext, hrest⟩ := bind_eq_ok.mp hl
    exact ih (h s x next hs hnext) hrest

/-- What every round keeps unless it discharges it, a loop keeps unless one of its rounds
does. -/
theorem foldlM_keeps_or {f : β → α → Except ε β} {P : β → Prop} {discharges : β → α → Prop}
    (h : ∀ s x s', P s → f s x = .ok s' → P s' ∨ discharges s x) {l : List α} {s s' : β} (hs : P s)
    (hl : l.foldlM f s = .ok s') :
    P s' ∨ ∃ before x after middle, l = before ++ x :: after ∧ before.foldlM f s = .ok middle ∧
      discharges middle x := by
  induction l generalizing s with
  | nil =>
    cases hl
    exact .inl hs
  | cons x rest ih =>
    rw [List.foldlM_cons] at hl
    obtain ⟨next, hnext, hrest⟩ := bind_eq_ok.mp hl
    rcases h s x next hs hnext with hkept | hdone
    · rcases ih hkept hrest with hkept | ⟨before, y, after, middle, rfl, hbefore, hdone⟩
      · exact .inl hkept
      · refine .inr ⟨x :: before, y, after, middle, rfl, ?_, hdone⟩
        rw [List.foldlM_cons]
        exact bind_eq_ok.mpr ⟨next, hnext, hbefore⟩
    · exact .inr ⟨[], x, rest, s, rfl, rfl, hdone⟩

end CreamBots.Data
