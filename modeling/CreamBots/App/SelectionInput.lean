import CreamBots.App.Selection

/-! What the selection makes of the list it is given.

Calculations finish in any order, and a result may be of an arb that has left the table
since. The order does not matter where no two results that are no loss have one profit:
sorted, the lists are one (`selection_order_independent`). A result of an unknown arb
does no harm while it is a loss. One that is not stays among the sorted results but has
no arb, so the two lists that are walked together differ in length, and nothing is
selected at all (`unknown_ids_ignored_iff`, `unknown_id_raises`). -/
namespace CreamBots.App
open Data Builders

variable {Id : Type} [DecidableEq Id] {allArbs : AllArbs Id}
  {results : List (ArbitrageCalculationResult Id)}

/-! ### Known ids are enough -/

/-- Whatever the working set, repeated arbs included, the loop ends, and what it has
chosen was in the set. -/
theorem selectionLoop_ok (arbs chosen : List (UniswapLpCycle Id)) (hne : arbs ≠ []) :
    ∃ selected, selectionLoop arbs chosen = .ok selected ∧
      ∀ arb ∈ selected, arb ∈ chosen ∨ arb ∈ arbs := by
  induction arbs using greedy.induct UniswapLpCycle.shares generalizing chosen with
  | case1 => exact absurd rfl hne
  | case2 most rest ih =>
    let added := if most ∈ chosen then chosen else chosen ++ [most]
    have hadded : ∀ arb ∈ added, arb ∈ chosen ∨ arb ∈ most :: rest := by
      intro arb harb
      by_cases hmost : most ∈ chosen
      · rw [show added = chosen from if_pos hmost] at harb
        exact .inl harb
      · rw [show added = chosen ++ [most] from if_neg hmost] at harb
        rcases List.mem_append.mp harb with harb | harb
        · exact .inl harb
        · rw [List.mem_singleton.mp harb]
          exact .inr (List.mem_cons_self ..)
    rw [selectionLoop]
    split
    · rename_i e h
      rw [dropConflicting_eq] at h
      cases h
    · rename_i left h
      rw [dropConflicting_eq] at h
      cases h
      split
      · exact ⟨added, rfl, hadded⟩
      · rename_i hsome
        obtain ⟨selected, hselected, hmem⟩ := ih added hsome
        refine ⟨selected, hselected, fun arb harb => ?_⟩
        rcases hmem arb harb with harb | harb
        · exact hadded arb harb
        · exact .inr (List.mem_cons_of_mem _ (mem_compatible.mp harb).1)

/-- An arb of the working set has a result. -/
theorem exists_resultsByArbId {pairs : List (UniswapLpCycle Id × ArbitrageCalculationResult Id)}
    {arb : UniswapLpCycle Id} (harb : arb ∈ pairs.map Prod.fst) :
    ∃ result, (Dict.ofList (pairs.map fun p => (p.1.id, p.2))).get? arb.id = some result := by
  obtain ⟨p, hp, rfl⟩ := List.mem_map.mp harb
  rw [Dict.get?_ofList]
  exact Dict.lastValue?_isSome (p := (p.1.id, p.2)) (List.mem_map.mpr ⟨p, hp, rfl⟩)

/-- If every result that is no loss has a known id, nothing is raised. -/
theorem selectArbs_ok
    (hknown : ∀ result ∈ results, 0 ≤ result.profitAmount → result.id ∈ allArbs.keys) :
    ∃ selected, selectArbs allArbs results = .ok selected := by
  let profitable := allProfitableCalcResults results
  let pairs := paired allArbs profitable
  have hsnd : pairs.map Prod.snd = profitable := paired_snd fun result hr =>
    hknown result (mem_allProfitableCalcResults.mp hr).1 (mem_allProfitableCalcResults.mp hr).2
  have hzip : zipStrict profitable (profitableArbs allArbs profitable) =
      .ok (pairs.map fun p => (p.2, p.1)) := by
    rw [← zipStrict_unzip, paired_fst, hsnd]
  refine exists_bind_eq_ok hzip ?_
  by_cases hnone : profitableArbs allArbs profitable = []
  · exact ⟨[], if_pos hnone⟩
  · show ∃ selected, (if profitableArbs allArbs profitable = [] then _ else _) = Except.ok selected
    rw [if_neg hnone]
    obtain ⟨chosen, hchosen, hmem⟩ := selectionLoop_ok _ [] hnone
    refine exists_bind_eq_ok hchosen (exists_mapM_ok fun arb harb => ?_)
    have harb : arb ∈ pairs.map Prod.fst := by
      rw [paired_fst]
      exact (hmem arb harb).resolve_left List.not_mem_nil
    obtain ⟨result, hresult⟩ := exists_resultsByArbId harb
    simp only [List.map_map, Function.comp_def]
    rw [hresult]
    exact ⟨_, rfl⟩

/-! ### The order of completion -/

omit [DecidableEq Id] in
/-- Where no two results that are no loss have one profit, they are sorted into one list. -/
theorem allProfitableCalcResults_perm {results' : List (ArbitrageCalculationResult Id)}
    (hperm : results.Perm results')
    (hprofits : ((results.filter fun result => decide (0 ≤ result.profitAmount)).map
      ArbitrageCalculationResult.profitAmount).Nodup) :
    allProfitableCalcResults results = allProfitableCalcResults results' := by
  apply sortBy_eq_of_perm (hperm.filter _)
  exact hprofits

/-- **The selection does not depend on the order in which calculations finish.** -/
theorem selection_order_independent (allArbs : AllArbs Id)
    (results results' : List (ArbitrageCalculationResult Id)) (hperm : results.Perm results')
    (hknown : ∀ result ∈ results, result.id ∈ allArbs.keys)
    (hprofits : ((results.filter fun result => decide (0 ≤ result.profitAmount)).map
      ArbitrageCalculationResult.profitAmount).Nodup) :
    (∃ selected, selectArbs allArbs results = .ok selected ∧
      selectArbs allArbs results' = .ok selected) ∧
    ∀ (calculateWithPool : UniswapLpCycle Id → Except PyError (Future Id))
      (arbHelpers : List (UniswapLpCycle Id)) (asCompleted asCompleted' : List (Future Id) → List (Future Id)),
      calculationResults (asCompleted (calculationFutures calculateWithPool arbHelpers)) = results →
      calculationResults (asCompleted' (calculationFutures calculateWithPool arbHelpers)) = results' →
      ∃ selected, processOnchainArbs allArbs calculateWithPool asCompleted arbHelpers = .ok selected ∧
        processOnchainArbs allArbs calculateWithPool asCompleted' arbHelpers = .ok selected := by
  obtain ⟨selected, hselected⟩ := selectArbs_ok fun result hr _ => hknown result hr
  have hselected' : selectArbs allArbs results' = .ok selected := by
    rw [← hselected, selectArbs, selectArbs, allProfitableCalcResults_perm hperm hprofits]
  refine ⟨⟨selected, hselected, hselected'⟩, fun calculateWithPool arbHelpers asCompleted asCompleted'
    hresults hresults' => ?_⟩
  rw [processOnchainArbs, processOnchainArbs, hresults, hresults']
  split
  · exact ⟨[], rfl, rfl⟩
  · exact ⟨selected, hselected, hselected'⟩

/-- Two orders of the three results. -/
theorem selection_order_independent_blocking : ∃ selected,
    selectArbs blockingArbs blockingResults = .ok selected ∧
      selectArbs blockingArbs blockingResults.reverse = .ok selected :=
  (selection_order_independent blockingArbs blockingResults blockingResults.reverse
    (List.reverse_perm _).symm (by decide) (by decide)).1

/-! ### Unknown ids -/

/-- The results of arbs that are in the table. -/
def knownResults (allArbs : AllArbs Id) (results : List (ArbitrageCalculationResult Id)) :
    List (ArbitrageCalculationResult Id) :=
  results.filter fun result => allArbs.contains result.id

/-- What is selected from is paired with an arb, result by result. -/
theorem known_of_selectArbs_ok
    {selected : List (UniswapLpCycle Id × ArbitrageCalculationResult Id)}
    (h : selectArbs allArbs results = .ok selected) :
    ∀ result ∈ results, 0 ≤ result.profitAmount → result.id ∈ allArbs.keys := by
  intro result hr hgain
  obtain ⟨pairs, hzip, _⟩ := bind_eq_ok.mp h
  rw [zipStrict] at hzip
  split at hzip
  · rename_i hlength
    have harb := List.filterMap_length_eq_length.mp hlength.symm result
      (mem_allProfitableCalcResults.mpr ⟨hr, hgain⟩)
    rw [Option.isSome_map] at harb
    exact Dict.contains_iff.mp harb
  · cases hzip

/-- Unknown results that are a loss are not sorted. -/
theorem allProfitableCalcResults_known
    (hknown : ∀ result ∈ results, 0 ≤ result.profitAmount → result.id ∈ allArbs.keys) :
    allProfitableCalcResults (knownResults allArbs results) = allProfitableCalcResults results := by
  rw [allProfitableCalcResults, allProfitableCalcResults, knownResults, List.filter_filter]
  congr 1
  apply List.filter_congr
  intro result hr
  by_cases hgain : 0 ≤ result.profitAmount
  · simp [hgain, Dict.contains_iff.mpr (hknown result hr hgain)]
  · simp [hgain]

/-- **Results of unknown arbs are ignored exactly if all of them are losses.** -/
theorem unknown_ids_ignored_iff (allArbs : AllArbs Id)
    (results : List (ArbitrageCalculationResult Id)) :
    (∃ selected, selectArbs allArbs results = .ok selected ∧
        selectArbs allArbs (knownResults allArbs results) = .ok selected) ↔
      ∀ result ∈ results, 0 ≤ result.profitAmount → result.id ∈ allArbs.keys := by
  refine ⟨fun ⟨selected, hselected, _⟩ => known_of_selectArbs_ok hselected, fun hknown => ?_⟩
  obtain ⟨selected, hselected⟩ := selectArbs_ok hknown
  refine ⟨selected, hselected, ?_⟩
  rw [← hselected, selectArbs, selectArbs, allProfitableCalcResults_known hknown]

/-- An unknown arb that gains beside a known one. -/
theorem unknown_id_raises : ¬∀ (allArbs : AllArbs Nat) (results : List (ArbitrageCalculationResult Nat)),
    ∃ selected, selectArbs allArbs results = .ok selected ∧
      selectArbs allArbs (knownResults allArbs results) = .ok selected := by
  intro h
  obtain ⟨selected, hselected, _⟩ := h blockingArbs [⟨1, 10⟩, ⟨4, 5⟩]
  have hraised : (selectArbs blockingArbs [⟨1, 10⟩, ⟨4, 5⟩]).toOption = none := by decide
  rw [hselected] at hraised
  cases hraised

end CreamBots.App
