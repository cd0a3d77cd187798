import CreamBots.Data.Dict
import CreamBots.Data.Sorted

/-! Dictionaries with their keys in order.

What a dictionary holds does not say in which order, but sorted by its keys it is
determined by what it holds (`Sorted.ext`). So a sorted dictionary can be compared as a
text, entry by entry. Filtering and setting a key that is there keep the order; what a
sorted dictionary holds is what was sorted (`get?_sortKeys`). -/
namespace CreamBots.Data.Dict
variable {κ α β : Type} [LinearOrder κ]

/-- The keys ascend. -/
def Sorted (d : Dict κ α) : Prop := d.items.Pairwise fun p q => p.1 ≤ q.1

def sortKeys (d : Dict κ α) : Dict κ α :=
  ⟨sortBy Prod.fst d.items, ((sortBy_perm Prod.fst d.items).map Prod.fst).nodup_iff.mpr d.nodup⟩

@[simp] theorem sorted_sortKeys (d : Dict κ α) : d.sortKeys.Sorted := sortBy_sorted Prod.fst d.items

@[simp] theorem get?_sortKeys (d : Dict κ α) (k : κ) : d.sortKeys.get? k = d.get? k := by
  ext v
  rw [get?_eq_some, get?_eq_some]
  exact (sortBy_perm Prod.fst d.items).mem_iff

/-- Two sorted dictionaries that hold the same are the same. -/
theorem Sorted.ext {d e : Dict κ α} (hd : d.Sorted) (he : e.Sorted) (h : ∀ k, d.get? k = e.get? k) :
    d = e := by
  have hmem : ∀ p, p ∈ d.items ↔ p ∈ e.items := fun p => by
    rw [← get?_eq_some (k := p.1) (v := p.2), h, get?_eq_some]
  have hperm : d.items.Perm e.items :=
    (List.perm_ext_iff_of_nodup d.nodup.of_map e.nodup.of_map).mpr hmem
  apply Dict.ext
  have hsort := sortBy_eq_of_perm hperm d.nodup
  rwa [sortBy, sortBy, List.Pairwise.insertionSort_eq hd, List.Pairwise.insertionSort_eq he] at hsort

theorem Sorted.filterValues {d : Dict κ α} (h : d.Sorted) (p : α → Bool) : (d.filterValues p).Sorted :=
  h.filter _

theorem Sorted.erase {d : Dict κ α} (h : d.Sorted) (k : κ) : (d.erase k).Sorted := h.filter _

theorem Sorted.mapValues {d : Dict κ α} (h : d.Sorted) (f : α → β) : (d.mapValues f).Sorted :=
  List.pairwise_map.mpr h

theorem Sorted.set {d : Dict κ α} (h : d.Sorted) {k : κ} (hk : k ∈ d.keys) (v : α) :
    (d.set k v).Sorted := by
  have hitems : (d.set k v).items = d.items.map fun p => if p.1 = k then (k, v) else p := if_pos hk
  have hkeys : ∀ p : κ × α, (if p.1 = k then (k, v) else p).1 = p.1 := by
    intro p
    split_ifs with hp
    · exact hp.symm
    · rfl
  rw [Sorted, hitems, List.pairwise_map]
  simp only [hkeys]
  exact h

/-- Sorting first is no different. -/
theorem sortKeys_mapValues (f : α → β) (d : Dict κ α) :
    (d.mapValues f).sortKeys = d.sortKeys.mapValues f := by
  refine (sorted_sortKeys _).ext ((sorted_sortKeys d).mapValues f) fun k => ?_
  rw [get?_sortKeys, get?_mapValues, get?_mapValues, get?_sortKeys]

end CreamBots.Data.Dict
