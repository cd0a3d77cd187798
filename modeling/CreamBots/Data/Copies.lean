import Mathlib.Data.List.Basic
import Mathlib.Data.List.Induction
import Mathlib.Data.Set.Insert
import Mathlib.Logic.Function.Basic

/-! Sets that are kept in memory and in files.

Whoever keeps them starts with empty sets, can load them from the files, and on an
update writes the set in memory over its file. Nothing comes into a file but what is
updated; what is in one already gets lost if an update finds it missing in memory, which
it is if it is older than the service and nothing has been loaded since
(`mem_file_run_iff`). -/
namespace CreamBots.Data

/-- What is done: a new service, with empty sets; loading them; an update of one. -/
inductive CopyStep (κ α : Type) where
  | create
  | load
  | update (k : κ) (x : α)

structure Copies (κ α : Type) where
  memory : κ → Set α
  file : κ → Set α

namespace Copies
variable {κ α : Type}

/-- What the files were is in memory as well. -/
def loaded (file : κ → Set α) : Copies κ α := ⟨file, file⟩

section Run
variable [DecidableEq κ]

def next (s : Copies κ α) : CopyStep κ α → Copies κ α
  | .create => {s with memory := fun _ => ∅}
  | .load => {s with memory := s.file}
  | .update k x =>
    let memory := Function.update s.memory k (insert x (s.memory k))
    ⟨memory, Function.update s.file k (memory k)⟩

def run (s : Copies κ α) (steps : List (CopyStep κ α)) : Copies κ α := steps.foldl next s

theorem run_concat (s : Copies κ α) (steps : List (CopyStep κ α)) (step : CopyStep κ α) :
    s.run (steps ++ [step]) = (s.run steps).next step := List.foldl_concat ..

@[simp] theorem file_create (s : Copies κ α) : (s.next .create).file = s.file := rfl

@[simp] theorem memory_create (s : Copies κ α) (k : κ) : (s.next .create).memory k = ∅ := rfl

@[simp] theorem file_load (s : Copies κ α) : (s.next .load).file = s.file := rfl

@[simp] theorem memory_load (s : Copies κ α) : (s.next .load).memory = s.file := rfl

theorem mem_memory_update {s : Copies κ α} {k k' : κ} {x x' : α} :
    x ∈ (s.next (.update k' x')).memory k ↔ x ∈ s.memory k ∨ (k' = k ∧ x' = x) := by
  by_cases hk : k = k'
  · subst hk
    simp [next, eq_comm, or_comm]
  · simp [next, Function.update_of_ne hk, Ne.symm hk]

/-- The file of another set stays, the one updated is as memory. -/
theorem mem_file_update {s : Copies κ α} {k k' : κ} {x x' : α} :
    x ∈ (s.next (.update k' x')).file k ↔
      if k' = k then x ∈ s.memory k ∨ x' = x else x ∈ s.file k := by
  by_cases hk : k = k'
  · subst hk
    simp [next, eq_comm, or_comm]
  · rw [if_neg (Ne.symm hk)]
    simp [next, Function.update_of_ne hk]

end Run

/-- In the file at the start, or updated. -/
def Given (file : κ → Set α) (steps : List (CopyStep κ α)) (k : κ) (x : α) : Prop :=
  x ∈ file k ∨ .update k x ∈ steps

/-- Given before the service was created, and neither loaded nor updated since. -/
def Missing (file : κ → Set α) (steps : List (CopyStep κ α)) (k : κ) (x : α) : Prop :=
  ∃ before since, steps = before ++ .create :: since ∧ .load ∉ since ∧ Given file before k x ∧
    .update k x ∉ since

/-- Missing at an update, and not updated again. -/
def Lost (file : κ → Set α) (steps : List (CopyStep κ α)) (k : κ) (x : α) : Prop :=
  ∃ before since y after, steps = before ++ .create :: since ++ .update k y :: after ∧
    .load ∉ since ∧ Given file before k x ∧ .update k x ∉ since ++ .update k y :: after

variable {file : κ → Set α} {steps : List (CopyStep κ α)} {step : CopyStep κ α} {k : κ} {x : α}

theorem given_append {later : List (CopyStep κ α)} (h : Given file steps k x) :
    Given file (steps ++ later) k x := h.imp_right (List.mem_append_left later)

theorem given_concat :
    Given file (steps ++ [step]) k x ↔ Given file steps k x ∨ step = .update k x := by
  simp [Given, or_assoc, eq_comm]

theorem Missing.given (h : Missing file steps k x) : Given file steps k x := by
  obtain ⟨before, since, hsteps, _, hgiven, _⟩ := h
  rw [hsteps]
  exact given_append hgiven

theorem Lost.given (h : Lost file steps k x) : Given file steps k x := by
  obtain ⟨before, since, y, after, hsteps, _, hgiven, _⟩ := h
  rw [hsteps, List.append_assoc]
  exact given_append hgiven

/-- The last step, or a split of the others. -/
theorem concat_eq_append_cons {α : Type} {l before after : List α} {a m : α} :
    l ++ [a] = before ++ m :: after ↔
      (after = [] ∧ l = before ∧ a = m) ∨ ∃ rest, after = rest ++ [a] ∧ l = before ++ m :: rest := by
  constructor
  · intro h
    rcases List.eq_nil_or_concat' after with hnil | ⟨rest, b, hafter⟩
    · subst hnil
      exact .inl ⟨rfl, List.append_singleton_inj.mp h⟩
    · subst hafter
      rw [← List.cons_append, ← List.append_assoc] at h
      obtain ⟨hl, hb⟩ := List.append_singleton_inj.mp h
      exact .inr ⟨rest, by rw [hb], hl⟩
  · intro h
    rcases h with ⟨hafter, hl, ha⟩ | ⟨rest, hafter, hl⟩
    · rw [hafter, hl, ha]
    · rw [hafter, hl, List.append_assoc, List.cons_append]

/-- A creation makes everything missing, a load nothing, and an update brings one back. -/
theorem missing_concat : Missing file (steps ++ [step]) k x ↔
    (step = .create ∧ Given file steps k x) ∨
      (Missing file steps k x ∧ step ≠ .load ∧ step ≠ .update k x) := by
  constructor
  · intro h
    obtain ⟨before, since, hsteps, hload, hgiven, hupdate⟩ := h
    rcases concat_eq_append_cons.mp hsteps with ⟨_, hbefore, hcreate⟩ | ⟨rest, hsince, hrest⟩
    · rw [hbefore]
      exact .inl ⟨hcreate, hgiven⟩
    · rw [hsince, List.mem_append, List.mem_singleton, not_or] at hload hupdate
      exact .inr ⟨⟨before, rest, hrest, hload.1, hgiven, hupdate.1⟩, Ne.symm hload.2, Ne.symm hupdate.2⟩
  · intro h
    rcases h with ⟨hcreate, hgiven⟩ | ⟨⟨before, since, hsteps, hload, hgiven, hupdate⟩, hl, hu⟩
    · rw [hcreate]
      exact ⟨steps, [], rfl, List.not_mem_nil, hgiven, List.not_mem_nil⟩
    · refine ⟨before, since ++ [step], ?_, ?_, hgiven, ?_⟩
      · rw [hsteps, List.append_assoc, List.cons_append]
      · rw [List.mem_append, List.mem_singleton, not_or]
        exact ⟨hload, Ne.symm hl⟩
      · rw [List.mem_append, List.mem_singleton, not_or]
        exact ⟨hupdate, Ne.symm hu⟩

theorem lost_concat : Lost file (steps ++ [step]) k x ↔
    step ≠ .update k x ∧
      (Lost file steps k x ∨ (Missing file steps k x ∧ ∃ y, step = .update k y)) := by
  constructor
  · intro h
    obtain ⟨before, since, y, after, hsteps, hload, hgiven, hupdate⟩ := h
    rcases concat_eq_append_cons.mp hsteps with ⟨hafter, hl, hstep⟩ | ⟨rest, hafter, hrest⟩
    · rw [hafter, List.mem_append, List.mem_singleton, not_or] at hupdate
      refine ⟨?_, .inr ⟨⟨before, since, hl, hload, hgiven, hupdate.1⟩, y, hstep⟩⟩
      rw [hstep]
      exact Ne.symm hupdate.2
    · rw [hafter, ← List.cons_append, ← List.append_assoc, List.mem_append, List.mem_singleton,
        not_or] at hupdate
      exact ⟨Ne.symm hupdate.2, .inl ⟨before, since, y, rest, hrest, hload, hgiven, hupdate.1⟩⟩
  · intro h
    obtain ⟨hstep, hlost | ⟨hmissing, y, hy⟩⟩ := h
    · obtain ⟨before, since, y, after, hsteps, hload, hgiven, hupdate⟩ := hlost
      refine ⟨before, since, y, after ++ [step], ?_, hload, hgiven, ?_⟩
      · rw [hsteps, List.append_assoc, List.cons_append]
      · rw [← List.cons_append, ← List.append_assoc, List.mem_append, List.mem_singleton, not_or]
        exact ⟨hupdate, Ne.symm hstep⟩
    · obtain ⟨before, since, hsteps, hload, hgiven, hupdate⟩ := hmissing
      refine ⟨before, since, y, [], by rw [hsteps, hy], hload, hgiven, ?_⟩
      rw [List.mem_append, List.mem_singleton, not_or]
      exact ⟨hupdate, by rw [← hy]; exact Ne.symm hstep⟩

/-- Nothing is lost where every service loads before it updates. -/
theorem not_lost_of_load (hload : ∀ before since k x after,
    steps = before ++ .create :: since ++ .update k x :: after → .load ∈ since) : ¬Lost file steps k x := by
  intro hlost
  obtain ⟨before, since, y, after, hsteps, hnone, _⟩ := hlost
  exact hnone (hload before since k y after hsteps)

/-- The files hold what is given and not lost, and memory what of it is not missing. -/
structure Explained (file : κ → Set α) (steps : List (CopyStep κ α)) (s : Copies κ α) : Prop where
  inFile : ∀ k x, x ∈ s.file k ↔ Given file steps k x ∧ ¬Lost file steps k x
  inMemory : ∀ k x, x ∈ s.memory k ↔ x ∈ s.file k ∧ ¬Missing file steps k x

theorem explained_loaded : Explained file [] (loaded file) where
  inFile k x := by simp [loaded, Given, Lost]
  inMemory k x := by simp [loaded, Missing]

namespace Explained
variable [DecidableEq κ] {s : Copies κ α}

theorem create (h : Explained file steps s) :
    Explained file (steps ++ [.create]) (s.next .create) where
  inFile k x := by
    rw [given_concat, lost_concat]
    simpa using h.inFile k x
  inMemory k x := by
    refine iff_of_false (Set.notMem_empty x) fun hboth => hboth.2 (missing_concat.mpr (.inl ⟨rfl, ?_⟩))
    exact ((h.inFile k x).mp hboth.1).1

theorem load (h : Explained file steps s) : Explained file (steps ++ [.load]) (s.next .load) where
  inFile k x := by
    rw [given_concat, lost_concat]
    simpa using h.inFile k x
  inMemory k x := by
    rw [missing_concat]
    simp

/-- An update of a set writes what is in memory, without what is missing there. -/
theorem update (h : Explained file steps s) (k' : κ) (x' : α) :
    Explained file (steps ++ [.update k' x']) (s.next (.update k' x')) where
  inFile k x := by
    rw [mem_file_update, given_concat, lost_concat, h.inMemory, h.inFile]
    by_cases hk : k' = k
    · subst hk
      by_cases hx : x' = x
      · simp [hx]
      · simp [hx, and_assoc]
    · simp [hk]
  inMemory k x := by
    rw [mem_file_update, mem_memory_update, missing_concat, h.inMemory]
    by_cases hk : k' = k
    · subst hk
      by_cases hx : x' = x
      · simp [hx]
      · simp [hx]
    · simp [hk]

theorem next (h : Explained file steps s) (step : CopyStep κ α) :
    Explained file (steps ++ [step]) (s.next step) := by
  cases step with
  | create => exact h.create
  | load => exact h.load
  | update k x => exact h.update k x

end Explained

variable [DecidableEq κ]

theorem explained_run (file : κ → Set α) (steps : List (CopyStep κ α)) :
    Explained file steps ((loaded file).run steps) := by
  induction steps using List.reverseRecOn with
  | nil => exact explained_loaded
  | append_singleton steps step ih =>
    rw [run_concat]
    exact ih.next step

/-- **A file holds what was in it or is updated, but for what is lost.** -/
theorem mem_file_run_iff : x ∈ ((loaded file).run steps).file k ↔
    Given file steps k x ∧ ¬Lost file steps k x := (explained_run file steps).inFile k x

/-- The files hold all they were given just if nothing is lost. -/
theorem file_run_iff : (∀ k x, x ∈ ((loaded file).run steps).file k ↔ Given file steps k x) ↔
    ∀ k x, ¬Lost file steps k x := by
  refine forall₂_congr fun k x => ?_
  rw [mem_file_run_iff]
  exact ⟨fun h hlost => (h.mpr hlost.given).2 hlost, fun h => and_iff_left h⟩

end Copies
end CreamBots.Data
