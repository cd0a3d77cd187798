import Mathlib.Algebra.BigOperators.Group.List.Basic
import Mathlib.Algebra.Order.BigOperators.Group.List
import Mathlib.Algebra.Order.Group.Nat
import Mathlib.Algebra.Order.Ring.Int
import Mathlib.Data.Sym.Sym2

/-! Undirected multigraphs with data on their edges, as a client sees them.

A `Multigraph` is an implementation together with what it promises about the
edges added so far: parallel edges are kept, a node exists once an edge touches
it, and neighbours, degrees, membership and edge data do not depend on the
direction an edge was added in. A client is verified against any of them;
`edgeList` is one. -/
namespace CreamBots.Data

structure Edge (V E : Type) where
  u : V
  v : V
  data : E
deriving DecidableEq

namespace Edge
variable {V E : Type}

def ends (e : Edge V E) : Sym2 V := s(e.u, e.v)

/-- How often a node is an end of the edge: twice for a loop. -/
def endCount [DecidableEq V] (v : V) (e : Edge V E) : Nat :=
  (if e.u = v then 1 else 0) + if e.v = v then 1 else 0

theorem endCount_pos [DecidableEq V] {v : V} {e : Edge V E} (h : v ∈ e.ends) :
    1 ≤ e.endCount v := by
  unfold endCount
  rcases Sym2.mem_iff.mp h with rfl | rfl
  · rw [if_pos rfl]
    omega
  · rw [if_pos rfl]
    omega

end Edge

structure Multigraph (V E : Type) [DecidableEq V] where
  Graph : Type
  empty : Graph
  addEdge : Graph → V → V → E → Graph
  /-- No answer for a node that is not in the graph. -/
  neighbors : Graph → V → Option (List V)
  degree : Graph → V → Nat
  hasEdge : Graph → V → V → Bool
  /-- The data of the parallel edges between two nodes; no answer if there are none. -/
  edgeData : Graph → V → V → Option (List E)
  edges : Graph → List (Edge V E)
  edges_empty : edges empty = []
  edges_addEdge : ∀ g u v data, edges (addEdge g u v data) = edges g ++ [⟨u, v, data⟩]
  neighbors_eq_none : ∀ g v, neighbors g v = none ↔ ∀ e ∈ edges g, v ∉ e.ends
  neighbors_nodup : ∀ g v l, neighbors g v = some l → l.Nodup
  mem_neighbors : ∀ g v l, neighbors g v = some l →
    ∀ w, w ∈ l ↔ ∃ e ∈ edges g, e.ends = s(v, w)
  degree_eq : ∀ g v, degree g v = ((edges g).map (Edge.endCount v)).sum
  hasEdge_iff : ∀ g u v, hasEdge g u v = true ↔ ∃ e ∈ edges g, e.ends = s(u, v)
  edgeData_eq_none : ∀ g u v, edgeData g u v = none ↔ ∀ e ∈ edges g, e.ends ≠ s(u, v)
  edgeData_eq_some : ∀ g u v l, edgeData g u v = some l →
    l = ((edges g).filter fun e => decide (e.ends = s(u, v))).map Edge.data

namespace Multigraph
variable {V E : Type} [DecidableEq V]

theorem mem_edgeData (M : Multigraph V E) {g : M.Graph} {u v : V} {l : List E}
    (h : M.edgeData g u v = some l) {d : E} :
    d ∈ l ↔ ∃ e ∈ M.edges g, e.ends = s(u, v) ∧ e.data = d := by
  rw [M.edgeData_eq_some g u v l h]
  simp [and_assoc]

/-- Two different edges at a node give it degree two. -/
theorem two_le_degree [DecidableEq E] (M : Multigraph V E) {g : M.Graph} {v : V} {e e' : Edge V E}
    (he : e ∈ M.edges g) (he' : e' ∈ M.edges g) (hne : e ≠ e') (hv : v ∈ e.ends)
    (hv' : v ∈ e'.ends) : 2 ≤ M.degree g v := by
  rw [M.degree_eq, ← List.sum_map_erase (Edge.endCount v) he]
  have hrest : e' ∈ (M.edges g).erase e := (List.mem_erase_of_ne hne.symm).mpr he'
  have hle := List.single_le_sum (fun _ _ => Nat.zero_le _) _
    (List.mem_map_of_mem (f := Edge.endCount v) hrest)
  have h₁ := Edge.endCount_pos hv
  have h₂ := Edge.endCount_pos hv'
  omega

/-- The multigraph that is nothing but the list of its edges. -/
def edgeList [DecidableEq E] : Multigraph V E where
  Graph := List (Edge V E)
  empty := []
  addEdge g u v data := g ++ [⟨u, v, data⟩]
  neighbors g v :=
    if g.any fun e => decide (v ∈ e.ends) then
      some ((g.flatMap fun e =>
        (if e.u = v then [e.v] else []) ++ if e.v = v then [e.u] else []).dedup)
    else none
  degree g v := (g.map (Edge.endCount v)).sum
  hasEdge g u v := g.any fun e => decide (e.ends = s(u, v))
  edgeData g u v :=
    if g.any fun e => decide (e.ends = s(u, v)) then
      some ((g.filter fun e => decide (e.ends = s(u, v))).map Edge.data)
    else none
  edges g := g
  edges_empty := rfl
  edges_addEdge _ _ _ _ := rfl
  neighbors_eq_none g v := by simp
  neighbors_nodup g v l h := by
    split at h
    · cases h
      exact List.nodup_dedup _
    · cases h
  mem_neighbors g v l h w := by
    split at h
    · cases h
      simp only [List.mem_dedup, List.mem_flatMap, List.mem_append]
      refine exists_congr fun e => and_congr_right fun _ => ?_
      rw [Edge.ends, Sym2.eq_iff]
      by_cases hu : e.u = v <;> by_cases hv : e.v = v <;> simp [hu, hv, eq_comm]
    · cases h
  degree_eq _ _ := rfl
  hasEdge_iff g u v := by simp
  edgeData_eq_none g u v := by simp
  edgeData_eq_some g u v l h := by
    split at h
    · cases h
      rfl
    · cases h

end Multigraph
end CreamBots.Data
