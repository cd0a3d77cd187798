import CreamBots.Data.Dict
import Mathlib.Logic.Function.Basic

/-! Mutable values as objects.

A heap says what each object holds and which object is the next to be made. A table
that keeps objects under its keys is read by `view`. While no two keys have the same
object (`Separated`), writing to the object of a key sets that key in the view and
nothing else (`Separated.view_write`). -/
namespace CreamBots.Data
variable {κ α : Type}

structure Heap (α : Type) where
  get : Nat → α
  next : Nat

namespace Heap

def write (heap : Heap α) (object : Nat) (a : α) : Heap α :=
  {heap with get := Function.update heap.get object a}

/-- The new object is `heap.next`. -/
def alloc (heap : Heap α) (a : α) : Heap α := ⟨Function.update heap.get heap.next a, heap.next + 1⟩

/-- What a table of objects holds. -/
def view (heap : Heap α) (table : Dict κ Nat) : Dict κ α := table.mapValues heap.get

variable {heap : Heap α} {table : Dict κ Nat}

@[simp] theorem get_write_self (heap : Heap α) (object : Nat) (a : α) :
    (heap.write object a).get object = a := Function.update_self ..

theorem get_write_of_ne {object object' : Nat} (h : object' ≠ object) (a : α) :
    (heap.write object a).get object' = heap.get object' := Function.update_of_ne h ..

@[simp] theorem get_alloc_next (heap : Heap α) (a : α) : (heap.alloc a).get heap.next = a :=
  Function.update_self ..

theorem get_alloc_of_lt {object : Nat} (h : object < heap.next) (a : α) :
    (heap.alloc a).get object = heap.get object := Function.update_of_ne (Nat.ne_of_lt h) ..

/-- What a new object is given at once is what it is made with. -/
theorem write_alloc (heap : Heap α) (a b : α) : (heap.alloc a).write heap.next b = heap.alloc b := by
  show (⟨Function.update (Function.update heap.get heap.next a) heap.next b, heap.next + 1⟩ : Heap α) = _
  rw [Function.update_idem]
  rfl

variable [DecidableEq κ]

theorem get?_view (heap : Heap α) (table : Dict κ Nat) (key : κ) :
    (heap.view table).get? key = (table.get? key).map heap.get := Dict.get?_mapValues ..

theorem view_congr {heap' : Heap α}
    (h : ∀ key object, table.get? key = some object → heap'.get object = heap.get object) :
    heap'.view table = heap.view table := by
  apply Dict.ext
  apply List.map_congr_left
  intro p hp
  rw [h p.1 p.2 (Dict.get?_eq_some.mpr hp)]

theorem view_set (heap : Heap α) (table : Dict κ Nat) (key : κ) (object : Nat) :
    heap.view (table.set key object) = (heap.view table).set key (heap.get object) :=
  Dict.mapValues_set ..

/-- The objects of the table have been made, each for one key. -/
structure Separated (heap : Heap α) (table : Dict κ Nat) : Prop where
  made : ∀ key object, table.get? key = some object → object < heap.next
  own : ∀ key key' object, table.get? key = some object → table.get? key' = some object → key = key'

namespace Separated

/-- A write through one key. -/
theorem view_write (h : Separated heap table) {key : κ} {object : Nat}
    (hget : table.get? key = some object) (a : α) :
    (heap.write object a).view table = (heap.view table).set key a := by
  apply Dict.ext
  have hkey : key ∈ (heap.view table).keys :=
    Dict.mem_keys.mpr ⟨heap.get object, by rw [get?_view, hget, Option.map_some]⟩
  show table.items.map (fun p => (p.1, (heap.write object a).get p.2)) =
    if key ∈ (heap.view table).keys then
      (table.items.map fun p => (p.1, heap.get p.2)).map fun p => if p.1 = key then (key, a) else p
    else _
  rw [if_pos hkey, List.map_map]
  apply List.map_congr_left
  intro p hp
  have hp := Dict.get?_eq_some.mpr hp
  by_cases hk : p.1 = key
  · rw [hk, hget] at hp
    simp [hk, ← Option.some.inj hp]
  · have hne : p.2 ≠ object := fun he => hk (h.own p.1 key object (he ▸ hp) hget)
    simp [hk, get_write_of_ne hne]

theorem view_alloc (h : Separated heap table) (a : α) : (heap.alloc a).view table = heap.view table :=
  view_congr fun key object hget => get_alloc_of_lt (h.made key object hget) a

/-- Separation depends on the heap by what has been made only. -/
theorem mono (h : Separated heap table) {heap' : Heap α} (hnext : heap.next ≤ heap'.next) :
    Separated heap' table :=
  ⟨fun key object hget => Nat.lt_of_lt_of_le (h.made key object hget) hnext, h.own⟩

/-- A new key gets a new object. -/
theorem set_alloc (h : Separated heap table) (key : κ) (a : α) :
    Separated (heap.alloc a) (table.set key heap.next) := by
  have hold : ∀ k object, k ≠ key → (table.set key heap.next).get? k = some object →
      table.get? k = some object ∧ object < heap.next := by
    intro k object hk hget
    rw [Dict.get?_set, if_neg hk] at hget
    exact ⟨hget, h.made k object hget⟩
  have hnew : ∀ object, (table.set key heap.next).get? key = some object → object = heap.next := by
    intro object hget
    rw [Dict.get?_set_self] at hget
    exact (Option.some.inj hget).symm
  refine ⟨fun k object hget => ?_, fun k k' object hget hget' => ?_⟩
  · by_cases hk : k = key
    · rw [hnew object (hk ▸ hget)]
      exact Nat.lt_succ_self _
    · exact Nat.lt_succ_of_lt (hold k object hk hget).2
  · by_cases hk : k = key
    · by_cases hk' : k' = key
      · rw [hk, hk']
      · have hlt := (hold k' object hk' hget').2
        rw [hnew object (hk ▸ hget)] at hlt
        exact absurd hlt (Nat.lt_irrefl _)
    · by_cases hk' : k' = key
      · have hlt := (hold k object hk hget).2
        rw [hnew object (hk' ▸ hget')] at hlt
        exact absurd hlt (Nat.lt_irrefl _)
      · exact h.own k k' object (hold k object hk hget).1 (hold k' object hk' hget').1

theorem view_set_alloc (h : Separated heap table) (key : κ) (a : α) :
    (heap.alloc a).view (table.set key heap.next) = (heap.view table).set key a := by
  rw [view_set, h.view_alloc, get_alloc_next]

end Separated

/-! ### Making the objects of a table -/

/-- An object for each entry, one after the other. -/
def loadAll (l : List (κ × α)) (heap : Heap α) (table : Dict κ Nat) : Heap α × Dict κ Nat :=
  l.foldl (fun s p => (s.1.alloc p.2, s.2.set p.1 s.1.next)) (heap, table)

theorem Separated.loadAll (l : List (κ × α)) : ∀ {heap : Heap α} {table : Dict κ Nat},
    Separated heap table →
    Separated (loadAll l heap table).1 (loadAll l heap table).2 ∧
      (loadAll l heap table).1.view (loadAll l heap table).2 = (heap.view table).setAll l := by
  induction l with
  | nil => exact fun h => ⟨h, rfl⟩
  | cons p rest ih =>
    intro heap table h
    have hrest := ih (h.set_alloc p.1 p.2)
    rw [h.view_set_alloc] at hrest
    exact hrest

/-- The objects of a dictionary, in a heap of their own. -/
def load (d : Dict κ α) (a : α) : Heap α × Dict κ Nat := loadAll d.items ⟨fun _ => a, 0⟩ Dict.empty

theorem load_spec (d : Dict κ α) (a : α) :
    Separated (load d a).1 (load d a).2 ∧ (load d a).1.view (load d a).2 = d := by
  have hempty : Separated (⟨fun _ => a, 0⟩ : Heap α) (Dict.empty : Dict κ Nat) :=
    ⟨nofun, nofun⟩
  obtain ⟨hseparated, hview⟩ := Separated.loadAll d.items hempty
  refine ⟨hseparated, hview.trans ?_⟩
  exact d.ofList_items

end Heap
end CreamBots.Data
