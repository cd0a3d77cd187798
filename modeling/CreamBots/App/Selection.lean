import CreamBots.App.OnchainArbs
import Mathlib.Algebra.BigOperators.Group.Finset.Basic

/-! What the selection is worth.

Taken from the top of the sorted results, the arbs that are left share no pool, and an
arb that is not among them shares one with an arb that gains at least as much
(`selection_dominates`). So a set of arbs that share no pool can be charged to the
selection: an arb of `k` pools meets no more than `k` of the set, and the set gains at
most `k` times what the selection does (`selection_bound`). -/
namespace CreamBots.App
open Data Builders

variable {Id : Type}

namespace UniswapLpCycle

theorem shares_iff {arb other : UniswapLpCycle Id} :
    arb.shares other = true ↔
      ∃ pool ∈ other.swapPools, ∃ pool' ∈ arb.swapPools, pool'.address = pool.address := by
  simp only [shares, List.any_eq_true, tradesThrough_iff]

/-- Two arbs that share no pool do not trade through one. -/
theorem not_tradesThrough_of_not_shares {arb other : UniswapLpCycle Id}
    (h : arb.shares other = false) {poolAddress : Address}
    (harb : arb.tradesThrough poolAddress = true) : ¬other.tradesThrough poolAddress = true := by
  intro hother
  rw [shares_of_tradesThrough harb hother] at h
  cases h

theorem shares_self {arb : UniswapLpCycle Id} (h : 1 ≤ arb.swapPools.length) :
    arb.shares arb = true := by
  obtain ⟨pool, rest, hpools⟩ := List.exists_cons_of_length_pos h
  have hpool : pool ∈ arb.swapPools := hpools ▸ List.mem_cons_self ..
  exact shares_iff.mpr ⟨pool, hpool, pool, hpool, rfl⟩

/-- Of arbs that share no pool, an arb meets no more than it has pools. -/
theorem length_sharing_le {arb : UniswapLpCycle Id} {others : List (UniswapLpCycle Id)}
    (hdisjoint : others.Pairwise fun other other' => other.shares other' = false) :
    (others.filter arb.shares).length ≤ arb.swapPools.length := by
  rw [← List.length_map Pool.address]
  apply length_le_of_disjoint fun (other : UniswapLpCycle Id) a => other.tradesThrough a = true
  · exact (hdisjoint.sublist List.filter_sublist).imp fun h a => not_tradesThrough_of_not_shares h
  · intro other hother
    obtain ⟨pool, hpool, pool', hpool', h⟩ := shares_iff.mp (List.mem_filter.mp hother).2
    exact ⟨pool'.address, List.mem_map_of_mem hpool', tradesThrough_iff.mpr ⟨pool, hpool, h.symm⟩⟩

end UniswapLpCycle

section Selection
variable [DecidableEq Id] {allArbs : AllArbs Id} {results : List (ArbitrageCalculationResult Id)}

/-- The cycle that a result is of. -/
def cycleOf (allArbs : AllArbs Id) (result : ArbitrageCalculationResult Id) :
    Option (UniswapLpCycle Id) :=
  (allArbs.get? result.id).map ArbDetails.lpCycle

theorem mem_paired_iff {arb : UniswapLpCycle Id} {result : ArbitrageCalculationResult Id} :
    (arb, result) ∈ paired allArbs results ↔ result ∈ results ∧ cycleOf allArbs result = some arb := by
  rw [paired, List.mem_filterMap]
  constructor
  · intro hmem
    obtain ⟨r, hr, hpair⟩ := hmem
    obtain ⟨details, hget, hpair⟩ := Option.map_eq_some_iff.mp hpair
    obtain ⟨rfl, rfl⟩ := Prod.mk.inj hpair
    exact ⟨hr, by rw [cycleOf, hget, Option.map_some]⟩
  · intro hboth
    obtain ⟨hresult, hcycle⟩ := hboth
    obtain ⟨details, hget, rfl⟩ := Option.map_eq_some_iff.mp hcycle
    refine ⟨result, hresult, ?_⟩
    rw [hget, Option.map_some]

/-- Each result is followed by results of no more profit. -/
theorem paired_sorted (hknown : ∀ result ∈ results, result.id ∈ allArbs.keys) :
    (paired allArbs (allProfitableCalcResults results)).Pairwise
      fun p p' => p'.2.profitAmount ≤ p.2.profitAmount := by
  have hsorted := allProfitableCalcResults_sorted results
  rw [← paired_profitable hknown, List.pairwise_map] at hsorted
  exact hsorted

omit [DecidableEq Id] in
/-- The cycles found for a pool have two or three. -/
theorem findAffectedArbs_length {poolAddress : Address} {arb : UniswapLpCycle Id}
    (h : arb ∈ findAffectedArbs allArbs poolAddress) :
    1 ≤ arb.swapPools.length ∧ arb.swapPools.length ≤ 3 := by
  have haffected := (List.mem_filter.mp h).2
  unfold UniswapLpCycle.affectedBy at haffected
  split at haffected
  · rename_i hpools
    simp [hpools]
  · rename_i hpools
    simp [hpools]
  · cases haffected

/-- **The selection is conflict-free, maximal and dominant.** -/
theorem selection_dominates (allArbs : AllArbs Id) (hown : AllArbs.OwnIds allArbs)
    (results : List (ArbitrageCalculationResult Id))
    (hknown : ∀ result ∈ results, result.id ∈ allArbs.keys)
    (hnodup : (results.map ArbitrageCalculationResult.id).Nodup) :
    ∃ selected, selectArbs allArbs results = .ok selected ∧
      (profitableArbs allArbs (allProfitableCalcResults results) ≠ [] →
        selectionLoop (profitableArbs allArbs (allProfitableCalcResults results)) [] =
          .ok (selected.map Prod.fst)) ∧
      (∀ arb result, (arb, result) ∈ selected →
        result ∈ results ∧ result.id = arb.id ∧ cycleOf allArbs result = some arb ∧
          0 ≤ result.profitAmount) ∧
      (selected.Pairwise fun p p' => p.1.shares p'.1 = false) ∧
      ∀ result ∈ results, 0 ≤ result.profitAmount → result ∉ selected.map Prod.snd →
        ∃ arb blocked better, cycleOf allArbs result = some blocked ∧ (arb, better) ∈ selected ∧
          arb.shares blocked = true ∧ result.profitAmount ≤ better.profitAmount := by
  refine ⟨_, selectArbs_eq hown hknown hnodup, selectionLoop_paired hown hknown hnodup,
    fun arb result hmem => ?_, greedy_pairwise _ _, fun result hresult hgain hout => ?_⟩
  · have hpair := greedy_subset _ _ hmem
    obtain ⟨hprofitable, hcycle⟩ := mem_paired_iff.mp hpair
    obtain ⟨hresult, hgain⟩ := mem_allProfitableCalcResults.mp hprofitable
    exact ⟨hresult, (mem_paired hown hpair).2.2.symm, hcycle, hgain⟩
  · obtain ⟨details, hget⟩ := Dict.mem_keys.mp (hknown result hresult)
    have hcycle : cycleOf allArbs result = some details.lpCycle := by
      rw [cycleOf, hget, Option.map_some]
    have hpair : (details.lpCycle, result) ∈ paired allArbs (allProfitableCalcResults results) :=
      mem_paired_iff.mpr ⟨mem_allProfitableCalcResults.mpr ⟨hresult, hgain⟩, hcycle⟩
    rcases mem_greedy_or_blocked _ (paired_sorted hknown) hpair with htaken | ⟨⟨arb, better⟩, hmem, hle, hshares⟩
    · exact absurd (List.mem_map_of_mem htaken) hout
    · exact ⟨arb, details.lpCycle, better, hcycle, hmem, hshares, hle⟩

/-- A set of results with disjoint arbs, as a choice of arbs with their results. -/
theorem paired_pairwise {T : Finset (ArbitrageCalculationResult Id)}
    (hsnd : (paired allArbs T.toList).map Prod.snd = T.toList)
    (hdisjoint : ∀ result ∈ T, ∀ result' ∈ T, result ≠ result' → ∀ arb arb',
      cycleOf allArbs result = some arb → cycleOf allArbs result' = some arb' →
        arb.shares arb' = false) :
    (paired allArbs T.toList).Pairwise fun p p' => p.1.shares p'.1 = false := by
  have hne : (paired allArbs T.toList).Pairwise fun p p' => p.2 ≠ p'.2 := by
    have h := T.nodup_toList
    rw [← hsnd] at h
    exact List.pairwise_map.mp h
  apply hne.imp_of_mem
  intro p p' hp hp' hne
  obtain ⟨hresult, hcycle⟩ := mem_paired_iff.mp hp
  obtain ⟨hresult', hcycle'⟩ := mem_paired_iff.mp hp'
  exact hdisjoint _ (Finset.mem_toList.mp hresult) _ (Finset.mem_toList.mp hresult') hne _ _
    hcycle hcycle'

omit [DecidableEq Id] in
/-- Of disjoint arbs one arb shares a pool with at most as many as it has pools. -/
theorem length_charged_le {choice : List (UniswapLpCycle Id × ArbitrageCalculationResult Id)}
    (hpairwise : choice.Pairwise fun p p' => p.1.shares p'.1 = false) (arb : UniswapLpCycle Id) :
    (choice.filter fun p => arb.shares p.1).length ≤ arb.swapPools.length := by
  have h : ((choice.map Prod.fst).filter arb.shares).length ≤ arb.swapPools.length :=
    UniswapLpCycle.length_sharing_le (List.pairwise_map.mpr hpairwise)
  rw [List.filter_map, List.length_map] at h
  exact h

/-- **Any set of results whose arbs share no pool gains at most `k` times what is
selected**, where `k` bounds the pools of an arb: three for those found for a pool. -/
theorem selection_bound (allArbs : AllArbs Id) (hown : AllArbs.OwnIds allArbs) (k : Nat)
    (results : List (ArbitrageCalculationResult Id))
    (hknown : ∀ result ∈ results, result.id ∈ allArbs.keys)
    (hnodup : (results.map ArbitrageCalculationResult.id).Nodup)
    (hpools : ∀ result ∈ results, ∀ arb, cycleOf allArbs result = some arb →
      1 ≤ arb.swapPools.length ∧ arb.swapPools.length ≤ k)
    (T : Finset (ArbitrageCalculationResult Id)) (hT : ∀ result ∈ T, result ∈ results)
    (hgain : ∀ result ∈ T, 0 ≤ result.profitAmount)
    (hdisjoint : ∀ result ∈ T, ∀ result' ∈ T, result ≠ result' → ∀ arb arb',
      cycleOf allArbs result = some arb → cycleOf allArbs result' = some arb' →
        arb.shares arb' = false) :
    (∃ selected, selectArbs allArbs results = .ok selected ∧
      ∑ result ∈ T, result.profitAmount ≤
        k * (selected.map fun p => p.2.profitAmount).sum) ∧
    ∀ poolAddress, ∀ arb ∈ findAffectedArbs allArbs poolAddress,
      1 ≤ arb.swapPools.length ∧ arb.swapPools.length ≤ 3 := by
  refine ⟨⟨_, selectArbs_eq hown hknown hnodup, ?_⟩, fun _ _ => findAffectedArbs_length⟩
  let profitable := allProfitableCalcResults results
  have hmem : ∀ p ∈ paired allArbs profitable, p.2 ∈ results ∧ 0 ≤ p.2.profitAmount ∧
      cycleOf allArbs p.2 = some p.1 := by
    intro p hp
    obtain ⟨hprofitable, hcycle⟩ := mem_paired_iff.mp hp
    obtain ⟨hresult, hgain⟩ := mem_allProfitableCalcResults.mp hprofitable
    exact ⟨hresult, hgain, hcycle⟩
  -- The set as a choice from the list that the loop goes through.
  let choice := paired allArbs T.toList
  have hchoice : choice ⊆ paired allArbs profitable := by
    intro p hp
    obtain ⟨hresult, hcycle⟩ := mem_paired_iff.mp hp
    have hresult := Finset.mem_toList.mp hresult
    exact mem_paired_iff.mpr
      ⟨mem_allProfitableCalcResults.mpr ⟨hT _ hresult, hgain _ hresult⟩, hcycle⟩
  have hsnd : choice.map Prod.snd = T.toList :=
    paired_snd fun result hr => hknown result (hT result (Finset.mem_toList.mp hr))
  have hcharged : ∀ p ∈ paired allArbs profitable,
      (choice.filter fun p' => p.1.shares p'.1).length ≤ k := by
    intro p hp
    obtain ⟨hresult, _, hcycle⟩ := hmem p hp
    exact (length_charged_le (paired_pairwise hsnd hdisjoint) p.1).trans
      (hpools _ hresult _ hcycle).2
  have hbound := sum_le_of_charged (fun p p' => p.1.shares p'.1) (fun p => p.2.profitAmount)
    (paired_sorted hknown)
    (fun p hp => (hmem p hp).2.1)
    (fun p hp => UniswapLpCycle.shares_self (hpools _ (hmem p hp).1 _ (hmem p hp).2.2).1)
    hchoice hcharged
  calc ∑ result ∈ T, result.profitAmount
      = (T.toList.map fun result => result.profitAmount).sum := (Finset.sum_map_toList ..).symm
    _ = (choice.map fun p => p.2.profitAmount).sum := by rw [← hsnd, List.map_map]; rfl
    _ ≤ _ := hbound

end Selection

/-! ### One arb that drops two -/

/-- The first arb shares a pool with each of the others. -/
def blockingArbs : AllArbs Nat :=
  Dict.ofList [(1, ⟨⟨1, Address.fill 9, [⟨Address.fill 1, 0⟩, ⟨Address.fill 2, 0⟩], 1⟩, "load"⟩),
    (2, ⟨⟨2, Address.fill 9, [⟨Address.fill 1, 0⟩, ⟨Address.fill 3, 0⟩], 1⟩, "load"⟩),
    (3, ⟨⟨3, Address.fill 9, [⟨Address.fill 4, 0⟩, ⟨Address.fill 2, 0⟩], 1⟩, "load"⟩)]

def blockingResults : List (ArbitrageCalculationResult Nat) := [⟨2, 9⟩, ⟨1, 10⟩, ⟨3, 8⟩]

theorem blockingArbs_ownIds : AllArbs.OwnIds blockingArbs := by
  have hitems : ∀ p ∈ blockingArbs.items, p.2.lpCycle.id = p.1 := by decide
  exact fun id details h => hitems (id, details) (Dict.get?_eq_some.mp h)

theorem selection_dominates_blocking : ∃ selected,
    selectArbs blockingArbs blockingResults = .ok selected ∧
      selected.Pairwise fun p p' => p.1.shares p'.1 = false := by
  obtain ⟨selected, hselected, _, _, hpairwise, _⟩ := selection_dominates blockingArbs
    blockingArbs_ownIds blockingResults (by decide) (by decide)
  exact ⟨selected, hselected, hpairwise⟩

theorem selection_bound_blocking : ∃ selected,
    selectArbs blockingArbs blockingResults = .ok selected ∧
      17 ≤ 2 * (selected.map fun p => p.2.profitAmount).sum := by
  have hcycles : ∀ result ∈ blockingResults, ∀ arb ∈ cycleOf blockingArbs result,
      1 ≤ arb.swapPools.length ∧ arb.swapPools.length ≤ 2 := by decide
  have hdisjoint : ∀ result ∈ ({⟨2, 9⟩, ⟨3, 8⟩} : Finset (ArbitrageCalculationResult Nat)),
      ∀ result' ∈ ({⟨2, 9⟩, ⟨3, 8⟩} : Finset (ArbitrageCalculationResult Nat)), result ≠ result' →
        ∀ arb ∈ cycleOf blockingArbs result, ∀ arb' ∈ cycleOf blockingArbs result',
          arb.shares arb' = false := by decide
  obtain ⟨selected, hselected, hbound⟩ := (selection_bound blockingArbs blockingArbs_ownIds 2
    blockingResults (by decide) (by decide) hcycles {⟨2, 9⟩, ⟨3, 8⟩} (by decide) (by decide)
    fun result hr result' hr' hne arb arb' harb harb' =>
      hdisjoint result hr result' hr' hne arb harb arb' harb').1
  rw [Finset.sum_pair (by decide)] at hbound
  exact ⟨selected, hselected, hbound⟩

end CreamBots.App
