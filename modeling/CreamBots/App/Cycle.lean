import CreamBots.Builders.Record

/-! What the bot trades: pools, cycles of pools, and the table of all arbs.

`all_arbs` maps the id of an arb to its cycle. Cycles of the table are told apart by
their ids (`OwnIds`); pools are equal when their addresses are, so two cycles share
a pool when some address is in both. -/
namespace CreamBots.App
open Data Builders

/-- A pool helper. `object` tells apart helpers built for one address at different
times; equality and hash do not look at it. -/
structure Pool where
  address : Address
  object : Nat
deriving DecidableEq

structure UniswapLpCycle (Id : Type) where
  id : Id
  inputToken : Address
  swapPools : List Pool
  maxInput : Nat
deriving DecidableEq

structure ArbDetails (Id : Type) where
  lpCycle : UniswapLpCycle Id
  status : String
deriving DecidableEq

/-- `bot_state.all_arbs`. -/
abbrev AllArbs (Id : Type) := Dict Id (ArbDetails Id)

variable {Id : Type}

namespace UniswapLpCycle

def tradesThrough (arb : UniswapLpCycle Id) (poolAddress : Address) : Bool :=
  arb.swapPools.any fun pool => decide (pool.address = poolAddress)

/-- `set(arb.swap_pools) & set(other.swap_pools)` is not empty. -/
def shares (arb other : UniswapLpCycle Id) : Bool :=
  other.swapPools.any fun pool => arb.tradesThrough pool.address

theorem tradesThrough_iff {arb : UniswapLpCycle Id} {poolAddress : Address} :
    arb.tradesThrough poolAddress = true ↔ ∃ pool ∈ arb.swapPools, pool.address = poolAddress := by
  simp [tradesThrough]

theorem shares_of_tradesThrough {arb other : UniswapLpCycle Id} {poolAddress : Address}
    (h : arb.tradesThrough poolAddress = true) (h' : other.tradesThrough poolAddress = true) :
    arb.shares other = true := by
  obtain ⟨pool, hpool, rfl⟩ := tradesThrough_iff.mp h'
  exact List.any_eq_true.mpr ⟨pool, hpool, h⟩

end UniswapLpCycle

namespace AllArbs

/-- The cycles of the table, in its order. -/
def cycles (allArbs : AllArbs Id) : List (UniswapLpCycle Id) := allArbs.values.map ArbDetails.lpCycle

variable [DecidableEq Id]

/-- Every cycle is stored under its own id. -/
def OwnIds (allArbs : AllArbs Id) : Prop :=
  ∀ id details, allArbs.get? id = some details → details.lpCycle.id = id

variable {allArbs : AllArbs Id}

theorem mem_cycles {arb : UniswapLpCycle Id} :
    arb ∈ cycles allArbs ↔ ∃ id details, allArbs.get? id = some details ∧ details.lpCycle = arb := by
  simp only [cycles, List.mem_map, Dict.mem_values]
  constructor
  · intro hmem
    obtain ⟨details, ⟨id, hget⟩, harb⟩ := hmem
    exact ⟨id, details, hget, harb⟩
  · intro hmem
    obtain ⟨id, details, hget, harb⟩ := hmem
    exact ⟨details, ⟨id, hget⟩, harb⟩

theorem OwnIds.map_id_cycles (h : OwnIds allArbs) : (cycles allArbs).map UniswapLpCycle.id = allArbs.keys := by
  rw [cycles, Dict.values, Dict.keys, List.map_map, List.map_map]
  apply List.map_congr_left
  intro p hp
  exact h p.1 p.2 (Dict.get?_eq_some.mpr hp)

/-- The table gives a cycle of its own back. -/
theorem OwnIds.get?_id (h : OwnIds allArbs) {arb : UniswapLpCycle Id} (harb : arb ∈ cycles allArbs) :
    (allArbs.get? arb.id).map ArbDetails.lpCycle = some arb := by
  obtain ⟨id, details, hget, rfl⟩ := mem_cycles.mp harb
  rw [h id details hget, hget, Option.map_some]

theorem OwnIds.eq_of_id_eq (h : OwnIds allArbs) {arb arb' : UniswapLpCycle Id}
    (harb : arb ∈ cycles allArbs) (harb' : arb' ∈ cycles allArbs) (hid : arb.id = arb'.id) :
    arb = arb' := by
  have hget := h.get?_id harb
  rw [hid, h.get?_id harb', Option.some.injEq] at hget
  exact hget.symm

end AllArbs
end CreamBots.App
