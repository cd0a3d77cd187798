import Mathlib.Data.List.Induction
import Mathlib.Order.Lattice

/-! The latest of what something is told.

It takes over what it is told unless that is older than what it has (`later`). What it has
in the end is the latest of all, and of several with the same date the one that it was told
last (`latest_split`). So what it is told may come in any order, as long as things of one date
come in theirs (`latest_congr`). -/
namespace CreamBots.Data
variable {α κ : Type} [LinearOrder κ]

/-- The second takes the place of the first unless it is older. -/
def later (date : α → κ) (a b : α) : α := if date b < date a then a else b

def latest (date : α → κ) (first : α) (told : List α) : α := told.foldl (later date) first

variable {date : α → κ} {first : α} {told told' : List α}

theorem latest_concat (b : α) :
    latest date first (told ++ [b]) = later date (latest date first told) b := by
  rw [latest, List.foldl_append]
  rfl

/-- Nothing was told that is later, and what was told afterwards is older. -/
theorem latest_split (date : α → κ) (first : α) (told : List α) : ∃ before after,
    first :: told = before ++ latest date first told :: after ∧
      (∀ a ∈ before, date a ≤ date (latest date first told)) ∧
      ∀ a ∈ after, date a < date (latest date first told) := by
  induction told using List.reverseRecOn with
  | nil => exact ⟨[], [], rfl, by simp, by simp⟩
  | append_singleton told b ih =>
    obtain ⟨before, after, hsplit, hbefore, hafter⟩ := ih
    rw [latest_concat, later]
    by_cases hold : date b < date (latest date first told)
    · rw [if_pos hold]
      refine ⟨before, after ++ [b], ?_, hbefore, fun a ha => ?_⟩
      · rw [← List.cons_append, hsplit, List.append_assoc, List.cons_append]
      · rcases List.mem_append.mp ha with ha | ha
        · exact hafter a ha
        · rw [List.mem_singleton.mp ha]
          exact hold
    · rw [if_neg hold]
      refine ⟨first :: told, [], rfl, fun a ha => ?_, by simp⟩
      have hle := not_lt.mp hold
      rw [hsplit] at ha
      rcases List.mem_append.mp ha with ha | ha
      · exact (hbefore a ha).trans hle
      · rcases List.mem_cons.mp ha with rfl | ha
        · exact hle
        · exact (hafter a ha).le.trans hle

theorem latest_mem (date : α → κ) (first : α) (told : List α) :
    latest date first told ∈ first :: told := by
  obtain ⟨before, after, hsplit, _⟩ := latest_split date first told
  rw [hsplit]
  exact List.mem_append_right _ (List.mem_cons_self ..)

/-- What is no older than anything before it. -/
theorem latest_concat_of_le {b : α} (h : ∀ a ∈ first :: told, date a ≤ date b) :
    latest date first (told ++ [b]) = b := by
  rw [latest_concat, later, if_neg]
  exact not_lt.mpr (h _ (latest_mem ..))

theorem date_le_latest {a : α} (ha : a ∈ first :: told) : date a ≤ date (latest date first told) := by
  obtain ⟨before, after, hsplit, hbefore, hafter⟩ := latest_split date first told
  rw [hsplit] at ha
  rcases List.mem_append.mp ha with ha | ha
  · exact hbefore a ha
  · rcases List.mem_cons.mp ha with h | ha
    · rw [h]
    · exact (hafter a ha).le

/-- It is the last that is of its date. -/
theorem getLast?_filter_latest :
    ((first :: told).filter fun a => date a = date (latest date first told)).getLast? =
      some (latest date first told) := by
  obtain ⟨before, after, hsplit, _, hafter⟩ := latest_split date first told
  have hnone : after.filter (fun a => date a = date (latest date first told)) = [] := by
    rw [List.filter_eq_nil_iff]
    intro a ha
    simpa using (hafter a ha).ne
  rw [hsplit, List.filter_append, List.filter_cons_of_pos (by simp), hnone]
  exact List.getLast?_concat

/-- What is of different dates may come in any order. -/
theorem latest_congr (h : ∀ k, (told.filter fun a => date a = k) = told'.filter fun a => date a = k) :
    latest date first told = latest date first told' := by
  have hfilter : ∀ k, ((first :: told).filter fun a => date a = k) =
      (first :: told').filter fun a => date a = k := by
    intro k
    rw [List.filter_cons, List.filter_cons, h k]
  have hmem : ∀ a, a ∈ first :: told ↔ a ∈ first :: told' := by
    intro a
    have hsame := congrArg (a ∈ ·) (hfilter (date a))
    simpa [List.mem_filter] using hsame
  have hdate : date (latest date first told) = date (latest date first told') := by
    apply le_antisymm
    · exact date_le_latest ((hmem _).mp (latest_mem ..))
    · exact date_le_latest ((hmem _).mpr (latest_mem ..))
  have hlast : ((first :: told).filter fun a => date a = date (latest date first told)).getLast? =
      some (latest date first told) := getLast?_filter_latest
  rw [hdate, hfilter, getLast?_filter_latest] at hlast
  exact (Option.some.inj hlast).symm

end CreamBots.Data
