import Mathlib.Data.List.Induction
import Mathlib.Data.List.Nodup

/-! Dictionaries that remember insertion order.

A `Dict` is a list of entries with distinct keys. Setting a key that is present
replaces its value where it stands; setting a new one appends. Reading is by
`get?`, and every operation has one equation that says what `get?` returns
after it, so nothing outside this file looks at the list unless it iterates. -/
namespace CreamBots.Data

structure Dict (κ α : Type) where
  items : List (κ × α)
  nodup : (items.map Prod.fst).Nodup

namespace Dict
variable {κ α β : Type}

def keys (d : Dict κ α) : List κ := d.items.map Prod.fst

theorem nodup_keys (d : Dict κ α) : d.keys.Nodup := d.nodup

def values (d : Dict κ α) : List α := d.items.map Prod.snd

def empty : Dict κ α := ⟨[], List.nodup_nil⟩

@[simp] theorem items_empty : (empty : Dict κ α).items = [] := rfl

@[ext] theorem ext {d e : Dict κ α} (h : d.items = e.items) : d = e := by
  cases d
  cases e
  cases h
  rfl

/-- The same keys in the same order, other values. -/
def mapValues (f : α → β) (d : Dict κ α) : Dict κ β :=
  ⟨d.items.map fun p => (p.1, f p.2), by simpa [Function.comp_def] using d.nodup⟩

/-- The entries whose value passes. -/
def filterValues (p : α → Bool) (d : Dict κ α) : Dict κ α :=
  ⟨d.items.filter fun e => p e.2, d.nodup.sublist (List.filter_sublist.map _)⟩

/-- The entries whose key passes. -/
def filterKeys (p : κ → Bool) (d : Dict κ α) : Dict κ α :=
  ⟨d.items.filter fun e => p e.1, d.nodup.sublist (List.filter_sublist.map _)⟩

variable [DecidableEq κ]

def get? (d : Dict κ α) (k : κ) : Option α :=
  (d.items.find? fun p => decide (p.1 = k)).map Prod.snd

def contains (d : Dict κ α) (k : κ) : Bool := (d.get? k).isSome

/-- Replace in place if the key is there, append if it is not. -/
def set (d : Dict κ α) (k : κ) (v : α) : Dict κ α where
  items := if k ∈ d.keys then d.items.map fun p => if p.1 = k then (k, v) else p
    else d.items ++ [(k, v)]
  nodup := by
    split
    · have h : (d.items.map fun p => if p.1 = k then (k, v) else p).map Prod.fst =
          d.items.map Prod.fst := by
        rw [List.map_map]
        apply List.map_congr_left
        intro p _
        by_cases hp : p.1 = k <;> simp [hp]
      rw [h]
      exact d.nodup
    · rename_i hk
      rw [List.map_append, List.nodup_append]
      exact ⟨d.nodup, by simp, fun a ha b hb => by
        obtain rfl : b = k := by simpa using hb
        intro hab
        subst hab
        exact hk ha⟩

/-- Drop a key. -/
def erase (d : Dict κ α) (k : κ) : Dict κ α :=
  ⟨d.items.filter fun p => decide (p.1 ≠ k), d.nodup.sublist (List.filter_sublist.map _)⟩

/-- Set the entries of a list from left to right. -/
def setAll (d : Dict κ α) (l : List (κ × α)) : Dict κ α :=
  l.foldl (fun d p => d.set p.1 p.2) d

def ofList (l : List (κ × α)) : Dict κ α := empty.setAll l

/-- Set every entry of another dictionary, in its order. -/
def update (d e : Dict κ α) : Dict κ α := d.setAll e.items

/-! ### What `get?` returns -/

@[simp] theorem get?_empty (k : κ) : (empty : Dict κ α).get? k = none := rfl

theorem get?_eq_some {d : Dict κ α} {k : κ} {v : α} : d.get? k = some v ↔ (k, v) ∈ d.items := by
  obtain ⟨items, h⟩ := d
  unfold get?
  induction items with
  | nil => simp
  | cons p rest ih =>
    rw [List.map_cons, List.nodup_cons] at h
    by_cases hp : p.1 = k
    · subst hp
      have hrest : (p.1, v) ∉ rest := fun hm => h.1 (List.mem_map.mpr ⟨_, hm, rfl⟩)
      simp [hrest, Prod.ext_iff, eq_comm]
    · rw [List.find?_cons_of_neg (by simpa using hp), ih h.2, List.mem_cons]
      constructor
      · exact Or.inr
      · intro hcases
        rcases hcases with rfl | hm
        · exact absurd rfl hp
        · exact hm

theorem get?_eq_none {d : Dict κ α} {k : κ} : d.get? k = none ↔ k ∉ d.keys := by
  rw [Option.eq_none_iff_forall_ne_some]
  simp only [ne_eq, get?_eq_some, keys, List.mem_map, not_exists, not_and]
  constructor
  · intro h p hm hk
    obtain ⟨k', v⟩ := p
    subst hk
    exact h v hm
  · intro h v hm
    exact h (k, v) hm rfl

theorem mem_keys {d : Dict κ α} {k : κ} : k ∈ d.keys ↔ ∃ v, d.get? k = some v := by
  rw [← not_iff_not, ← get?_eq_none, Option.eq_none_iff_forall_ne_some]
  simp

theorem contains_iff {d : Dict κ α} {k : κ} : d.contains k = true ↔ k ∈ d.keys := by
  rw [mem_keys, contains, Option.isSome_iff_exists]

theorem mem_values {d : Dict κ α} {v : α} : v ∈ d.values ↔ ∃ k, d.get? k = some v := by
  simp [values, get?_eq_some]

theorem get?_set (d : Dict κ α) (k k' : κ) (v : α) :
    (d.set k v).get? k' = if k' = k then some v else d.get? k' := by
  ext w
  rw [get?_eq_some]
  simp only [set]
  by_cases hk : k ∈ d.keys
  · rw [if_pos hk, List.mem_map]
    constructor
    · intro hmem
      obtain ⟨p, hp, he⟩ := hmem
      by_cases hpk : p.1 = k
      · rw [if_pos hpk, Prod.mk.injEq] at he
        obtain ⟨rfl, rfl⟩ := he
        simp
      · rw [if_neg hpk] at he
        subst he
        rw [if_neg hpk]
        exact get?_eq_some.mpr hp
    · split
      · rename_i hkk
        subst hkk
        intro hw
        obtain ⟨v₀, hv₀⟩ := mem_keys.mp hk
        exact ⟨(k', v₀), get?_eq_some.mp hv₀, by simpa using hw⟩
      · rename_i hkk
        intro hw
        exact ⟨(k', w), get?_eq_some.mp hw, by simp [hkk]⟩
  · rw [if_neg hk, List.mem_append, List.mem_singleton, Prod.mk.injEq, ← get?_eq_some]
    by_cases hkk : k' = k
    · subst hkk
      simp [get?_eq_none.mpr hk, eq_comm]
    · simp [hkk]

@[simp] theorem get?_set_self (d : Dict κ α) (k : κ) (v : α) : (d.set k v).get? k = some v := by
  simp [get?_set]

theorem mem_keys_set {d : Dict κ α} {k k' : κ} {v : α} :
    k' ∈ (d.set k v).keys ↔ k' = k ∨ k' ∈ d.keys := by
  rw [mem_keys, mem_keys, get?_set]
  by_cases hk : k' = k <;> simp [hk]

/-- Setting a key to what it has changes nothing. -/
theorem set_of_get? {d : Dict κ α} {k : κ} {v : α} (h : d.get? k = some v) : d.set k v = d := by
  apply ext
  show (if k ∈ d.keys then d.items.map fun p => if p.1 = k then (k, v) else p else _) = d.items
  rw [if_pos (mem_keys.mpr ⟨v, h⟩)]
  refine (List.map_congr_left fun p hp => ?_).trans (List.map_id _)
  by_cases hk : p.1 = k
  · have hp := get?_eq_some.mpr hp
    rw [hk, h] at hp
    rw [if_pos hk, id, ← hk, Option.some.inj hp]
  · exact if_neg hk

theorem get?_erase (d : Dict κ α) (k k' : κ) :
    (d.erase k).get? k' = if k' = k then none else d.get? k' := by
  ext w
  rw [get?_eq_some]
  by_cases hk : k' = k <;> simp [erase, hk, get?_eq_some]

theorem get?_filterKeys (p : κ → Bool) (d : Dict κ α) (k : κ) :
    (d.filterKeys p).get? k = if p k then d.get? k else none := by
  ext w
  rw [get?_eq_some]
  by_cases hk : p k = true <;> simp [filterKeys, hk, get?_eq_some]

theorem get?_mapValues (f : α → β) (d : Dict κ α) (k : κ) :
    (d.mapValues f).get? k = (d.get? k).map f := by
  ext w
  simp [get?_eq_some, mapValues, Option.map_eq_some_iff]

omit [DecidableEq κ] in
theorem keys_mapValues (f : α → β) (d : Dict κ α) : (d.mapValues f).keys = d.keys := by
  simp [keys, mapValues, Function.comp_def]

theorem mapValues_set (f : α → β) (d : Dict κ α) (k : κ) (v : α) :
    (d.set k v).mapValues f = (d.mapValues f).set k (f v) := by
  apply ext
  show (if k ∈ d.keys then _ else _ : List (κ × α)).map _ = if k ∈ (d.mapValues f).keys then _ else _
  rw [keys_mapValues]
  split
  · show _ = List.map _ (d.items.map _)
    rw [List.map_map, List.map_map]
    apply List.map_congr_left
    intro p _
    by_cases hp : p.1 = k <;> simp [hp]
  · exact List.map_append ..

theorem get?_filterValues (p : α → Bool) (d : Dict κ α) (k : κ) :
    (d.filterValues p).get? k = (d.get? k).filter p := by
  ext w
  simp [get?_eq_some, filterValues, Option.filter_eq_some_iff]

/-- The value a list of entries leaves at a key: the last one. -/
def lastValue? (l : List (κ × α)) (k : κ) : Option α :=
  (l.reverse.find? fun p => decide (p.1 = k)).map Prod.snd

theorem lastValue?_concat (l : List (κ × α)) (p : κ × α) (k : κ) :
    lastValue? (l ++ [p]) k = if p.1 = k then some p.2 else lastValue? l k := by
  unfold lastValue?
  rw [List.reverse_append, List.reverse_singleton, List.singleton_append]
  by_cases h : p.1 = k <;> simp [h]

theorem lastValue?_mem {l : List (κ × α)} {k : κ} {v : α} (h : lastValue? l k = some v) :
    (k, v) ∈ l := by
  unfold lastValue? at h
  rw [Option.map_eq_some_iff] at h
  obtain ⟨p, hp, rfl⟩ := h
  have hk : p.1 = k := by simpa using List.find?_some hp
  rw [← hk]
  exact List.mem_reverse.mp (List.mem_of_find?_eq_some hp)

theorem lastValue?_isSome {l : List (κ × α)} {p : κ × α} (h : p ∈ l) :
    ∃ v, lastValue? l p.1 = some v := by
  unfold lastValue?
  cases hf : l.reverse.find? fun q => decide (q.1 = p.1) with
  | some q => exact ⟨q.2, rfl⟩
  | none =>
    rw [List.find?_eq_none] at hf
    exact absurd (hf p (List.mem_reverse.mpr h)) (by simp)

/-- The value left at a key is that of the last entry with the key. -/
theorem lastValue?_eq_some {l : List (κ × α)} {k : κ} {v : α} :
    lastValue? l k = some v ↔
      ∃ before after, l = before ++ (k, v) :: after ∧ ∀ p ∈ after, p.1 ≠ k := by
  unfold lastValue?
  rw [Option.map_eq_some_iff]
  refine ⟨fun ⟨p, hp, hv⟩ => ?_, fun ⟨before, after, hl, hafter⟩ => ⟨(k, v), ?_, rfl⟩⟩
  · obtain ⟨hk, later, earlier, hl, hlater⟩ := List.find?_eq_some_iff_append.mp hp
    refine ⟨earlier.reverse, later.reverse, ?_, fun q hq => ?_⟩
    · rw [← of_decide_eq_true hk, ← hv]
      have h := congrArg List.reverse hl
      rw [List.reverse_reverse, List.reverse_append, List.reverse_cons, List.append_assoc] at h
      exact h
    · simpa using hlater q (List.mem_reverse.mp hq)
  · apply List.find?_eq_some_iff_append.mpr
    refine ⟨decide_eq_true rfl, after.reverse, before.reverse, ?_, fun q hq => ?_⟩
    · rw [hl, List.reverse_append, List.reverse_cons, List.append_assoc]
      rfl
    · simpa using hafter q (List.mem_reverse.mp hq)

/-- Where entries are made of what passes a test, it is the last that passes with the key. -/
theorem lastValue?_map_filter {l : List β} {p : β → Bool} {entry : β → κ × α} {k : κ} {v : α} :
    lastValue? ((l.filter p).map entry) k = some v ↔
      ∃ before b after, l = before ++ b :: after ∧ p b = true ∧ entry b = (k, v) ∧
        ∀ later ∈ after, p later = true → (entry later).1 ≠ k := by
  rw [lastValue?_eq_some]
  constructor
  · intro hlast
    obtain ⟨before, after, hl, hafter⟩ := hlast
    obtain ⟨_, rest, hfilter, rfl, hrest⟩ := List.map_eq_append_iff.mp hl
    obtain ⟨b, passing, rfl, hb, rfl⟩ := List.map_eq_cons_iff.mp hrest
    obtain ⟨left, right, rfl, _, hright⟩ := List.filter_eq_append_iff.mp hfilter
    obtain ⟨skipped, after, rfl, _, hpasses, rfl⟩ := List.filter_eq_cons_iff.mp hright
    refine ⟨left ++ skipped, b, after, (List.append_assoc ..).symm, hpasses, hb, ?_⟩
    intro later hlater hp
    exact hafter _ (List.mem_map_of_mem (List.mem_filter.mpr ⟨hlater, hp⟩))
  · intro hlast
    obtain ⟨before, b, after, rfl, hpasses, hb, hafter⟩ := hlast
    refine ⟨(before.filter p).map entry, (after.filter p).map entry, ?_, fun q hq => ?_⟩
    · rw [List.filter_append, List.filter_cons_of_pos hpasses, List.map_append, List.map_cons, hb]
    · obtain ⟨later, hlater, rfl⟩ := List.mem_map.mp hq
      obtain ⟨hmem, hp⟩ := List.mem_filter.mp hlater
      exact hafter later hmem hp

theorem setAll_concat (d : Dict κ α) (l : List (κ × α)) (p : κ × α) :
    d.setAll (l ++ [p]) = (d.setAll l).set p.1 p.2 := by
  simp [setAll]

/-- Last write wins. -/
theorem get?_setAll (d : Dict κ α) (l : List (κ × α)) (k : κ) :
    (d.setAll l).get? k = (lastValue? l k).or (d.get? k) := by
  induction l using List.reverseRecOn with
  | nil => rfl
  | append_singleton l p ih =>
    rw [setAll_concat, get?_set, lastValue?_concat, ih]
    by_cases h : p.1 = k
    · simp [h]
    · simp [h, Ne.symm h]

theorem get?_ofList (l : List (κ × α)) (k : κ) : (ofList l).get? k = lastValue? l k := by
  simp [ofList, get?_setAll]

/-- A list that never gives one key two values is read back by membership. -/
theorem get?_ofList_of_functional {l : List (κ × α)}
    (h : ∀ p ∈ l, ∀ q ∈ l, p.1 = q.1 → p.2 = q.2) {k : κ} {v : α} :
    (ofList l).get? k = some v ↔ (k, v) ∈ l := by
  rw [get?_ofList]
  constructor
  · exact lastValue?_mem
  · intro hm
    obtain ⟨w, hw⟩ := lastValue?_isSome hm
    have hv : v = w := h _ hm _ (lastValue?_mem hw) rfl
    rw [hv]
    exact hw

theorem lastValue?_items (d : Dict κ α) (k : κ) : lastValue? d.items k = d.get? k := by
  cases h : lastValue? d.items k with
  | some v => exact (get?_eq_some.mpr (lastValue?_mem h)).symm
  | none =>
    symm
    rw [get?_eq_none]
    intro hk
    obtain ⟨p, hp, rfl⟩ := List.mem_map.mp hk
    obtain ⟨v, hv⟩ := lastValue?_isSome hp
    rw [h] at hv
    cases hv

theorem items_set_of_not_mem {d : Dict κ α} {k : κ} (h : k ∉ d.keys) (v : α) :
    (d.set k v).items = d.items ++ [(k, v)] := if_neg h

/-- Entries with distinct keys stand as they were set. -/
theorem items_ofList {l : List (κ × α)} (h : (l.map Prod.fst).Nodup) : (ofList l).items = l := by
  induction l using List.reverseRecOn with
  | nil => rfl
  | append_singleton l p ih =>
    rw [List.map_append, List.nodup_append] at h
    have hl := ih h.1
    rw [ofList, setAll_concat]
    have hk : p.1 ∉ (ofList l).keys := by
      rw [keys, hl]
      exact fun hm => h.2.2 p.1 hm p.1 (by simp) rfl
    exact (items_set_of_not_mem hk p.2).trans (by rw [hl])

theorem ofList_items (d : Dict κ α) : ofList d.items = d := ext (items_ofList d.nodup)

theorem get?_update (d e : Dict κ α) (k : κ) : (d.update e).get? k = (e.get? k).or (d.get? k) := by
  rw [update, get?_setAll, lastValue?_items]

end Dict
end CreamBots.Data
