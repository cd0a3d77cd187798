import CreamBots.App.AffectedArbs
import CreamBots.Data.Greedy
import CreamBots.Data.Sorted

/-! Choosing among the arbs that a pool update concerns.

`process_onchain_arbs` has every arb's profit calculated, sorts the results that are
no loss by profit and takes arbs from the top, dropping what shares a pool with one
taken. With known ids that do not repeat this is greedy selection on the sorted
results (`selectArbs_eq`). The arbs found for one pool all share it, so of them it
takes the most profitable alone (`one_best_arb_selected`). -/
namespace CreamBots.App
open Data Builders

variable {Id : Type}

structure ArbitrageCalculationResult (Id : Type) where
  id : Id
  profitAmount : Int
deriving DecidableEq

/-- A submitted calculation: what awaiting it gives. -/
abbrev Future (Id : Type) := Except PyError (ArbitrageCalculationResult Id)

/-! ### The calculations -/

section Calculations
variable (calculateWithPool : UniswapLpCycle Id → Except PyError (Future Id))

/-- `calculation_futures`: an arb that raises when it is submitted is left out. -/
def calculationFutures (arbHelpers : List (UniswapLpCycle Id)) : List (Future Id) :=
  arbHelpers.filterMap fun arbHelper =>
    match calculateWithPool arbHelper with
    | .ok future => some future
    | .error _ => none

/-- `calculation_results`, in the order of completion: one that raises is left out. -/
def calculationResults (completed : List (Future Id)) : List (ArbitrageCalculationResult Id) :=
  completed.filterMap fun task =>
    match task with
    | .ok result => some result
    | .error _ => none

/-- The calculation of one of the arbs has ended with this result. -/
def Finished (arbHelpers : List (UniswapLpCycle Id)) (result : ArbitrageCalculationResult Id) : Prop :=
  ∃ arb ∈ arbHelpers, calculateWithPool arb = .ok (.ok result)

variable {calculateWithPool}

theorem mem_calculationResults {arbHelpers : List (UniswapLpCycle Id)}
    {result : ArbitrageCalculationResult Id} :
    result ∈ calculationResults (calculationFutures calculateWithPool arbHelpers) ↔
      Finished calculateWithPool arbHelpers result := by
  simp only [calculationResults, calculationFutures, List.mem_filterMap, Finished]
  refine ⟨fun ⟨future, ⟨arb, harb, hfuture⟩, hresult⟩ => ⟨arb, harb, ?_⟩,
    fun ⟨arb, harb, hresult⟩ => ⟨.ok result, ⟨arb, harb, by rw [hresult]⟩, rfl⟩⟩
  cases hcalculate : calculateWithPool arb with
  | error e =>
    rw [hcalculate] at hfuture
    cases hfuture
  | ok submitted =>
    rw [hcalculate] at hfuture
    cases hfuture
    cases future with
    | error e => cases hresult
    | ok r =>
      cases hresult
      rfl

/-- An arb has one result at most. -/
theorem calculationResults_ids {arbHelpers : List (UniswapLpCycle Id)}
    (hid : ∀ arb ∈ arbHelpers, ∀ result, calculateWithPool arb = .ok (.ok result) →
      result.id = arb.id) :
    ((calculationResults (calculationFutures calculateWithPool arbHelpers)).map
      ArbitrageCalculationResult.id).Sublist (arbHelpers.map UniswapLpCycle.id) := by
  induction arbHelpers with
  | nil => exact .refl _
  | cons arb rest ih =>
    have hrest := ih fun a ha => hid a (List.mem_cons_of_mem arb ha)
    have harb := hid arb (List.mem_cons_self ..)
    rw [calculationFutures, List.filterMap_cons]
    cases hcalculate : calculateWithPool arb with
    | error e => exact hrest.cons _
    | ok future =>
      cases future with
      | error e => exact hrest.cons _
      | ok result =>
        rw [List.map_cons, ← harb result hcalculate]
        exact hrest.cons_cons _

end Calculations

/-! ### The selection -/

/-- `sorted(.., reverse=True)` of the results that are no loss. -/
def allProfitableCalcResults (results : List (ArbitrageCalculationResult Id)) :
    List (ArbitrageCalculationResult Id) :=
  sortBy (fun result => OrderDual.toDual result.profitAmount)
    (results.filter fun result => decide (0 ≤ result.profitAmount))

theorem mem_allProfitableCalcResults {results : List (ArbitrageCalculationResult Id)}
    {result : ArbitrageCalculationResult Id} :
    result ∈ allProfitableCalcResults results ↔ result ∈ results ∧ 0 ≤ result.profitAmount := by
  rw [allProfitableCalcResults, (sortBy_perm _ _).mem_iff, List.mem_filter, decide_eq_true_iff]

theorem allProfitableCalcResults_sorted (results : List (ArbitrageCalculationResult Id)) :
    (allProfitableCalcResults results).Pairwise fun r r' => r'.profitAmount ≤ r.profitAmount :=
  sortBy_sorted (fun result : ArbitrageCalculationResult Id => OrderDual.toDual result.profitAmount) _

/-- `zip(.., strict=True)`, exhausted. -/
def zipStrict {α β : Type} (l : List α) (l' : List β) : Except PyError (List (α × β)) :=
  if l.length = l'.length then .ok (l.zip l') else .error .valueError

section Selection
variable [DecidableEq Id]

/-- `list.remove`. -/
def remove (l : List (UniswapLpCycle Id)) (arb : UniswapLpCycle Id) :
    Except PyError (List (UniswapLpCycle Id)) :=
  if arb ∈ l then .ok (l.erase arb) else .error .valueError

/-- Drop conflicting arbs from the working set. -/
def dropConflicting (most : UniswapLpCycle Id) (rest : List (UniswapLpCycle Id)) :
    Except PyError (List (UniswapLpCycle Id)) :=
  (rest.filter most.shares).foldlM remove rest

theorem remove_length {l l' : List (UniswapLpCycle Id)} {arb : UniswapLpCycle Id}
    (h : remove l arb = .ok l') : l'.length ≤ l.length := by
  rw [remove] at h
  split at h
  · cases h
    exact List.length_erase_le
  · cases h

theorem foldlM_remove_length {arbs : List (UniswapLpCycle Id)} :
    ∀ {l l' : List (UniswapLpCycle Id)}, arbs.foldlM remove l = .ok l' → l'.length ≤ l.length := by
  induction arbs with
  | nil =>
    intro l l' h
    cases h
    exact Nat.le_refl _
  | cons arb arbs ih =>
    intro l l' h
    rw [List.foldlM_cons] at h
    obtain ⟨next, hnext, hrest⟩ := bind_eq_ok.mp h
    exact (ih hrest).trans (remove_length hnext)

/-- The loop over the working set. `arbsWithoutOverlap` is a set: its order is that of
the additions and an arb that is in it is not added again. -/
def selectionLoop (allProfitableArbs arbsWithoutOverlap : List (UniswapLpCycle Id)) :
    Except PyError (List (UniswapLpCycle Id)) :=
  match allProfitableArbs with
  | [] => .error .indexError
  | most :: rest =>
    let chosen := if most ∈ arbsWithoutOverlap then arbsWithoutOverlap
      else arbsWithoutOverlap ++ [most]
    match _h : dropConflicting most rest with
    | .error e => .error e
    | .ok left => if left = [] then .ok chosen else selectionLoop left chosen
termination_by allProfitableArbs.length
decreasing_by exact Nat.lt_succ_of_le (foldlM_remove_length _h)

variable (allArbs : AllArbs Id)

/-- `all_profitable_arbs`. -/
def profitableArbs (results : List (ArbitrageCalculationResult Id)) : List (UniswapLpCycle Id) :=
  results.filterMap fun result => (allArbs.get? result.id).map ArbDetails.lpCycle

/-- From the results on: the arbs that are left, each with its result. -/
def selectArbs (results : List (ArbitrageCalculationResult Id)) :
    Except PyError (List (UniswapLpCycle Id × ArbitrageCalculationResult Id)) := do
  let profitable := allProfitableCalcResults results
  let arbs := profitableArbs allArbs profitable
  let pairs ← zipStrict profitable arbs
  let resultsByArbId := Dict.ofList (pairs.map fun p => (p.2.id, p.1))
  if arbs = [] then return []
  let arbsWithoutOverlap ← selectionLoop arbs []
  arbsWithoutOverlap.mapM fun arb =>
    match resultsByArbId.get? arb.id with
    | some result => .ok (arb, result)
    | none => .error .keyError

/-- `process_onchain_arbs`; `asCompleted` is the order in which calculations finish. -/
def processOnchainArbs (calculateWithPool : UniswapLpCycle Id → Except PyError (Future Id))
    (asCompleted : List (Future Id) → List (Future Id)) (arbHelpers : List (UniswapLpCycle Id)) :
    Except PyError (List (UniswapLpCycle Id × ArbitrageCalculationResult Id)) :=
  if arbHelpers.length = 0 then .ok []
  else selectArbs allArbs
    (calculationResults (asCompleted (calculationFutures calculateWithPool arbHelpers)))

/-! ### The loop is greedy selection -/

theorem foldlM_remove_cons {arb : UniswapLpCycle Id} {dropped : List (UniswapLpCycle Id)}
    (h : arb ∉ dropped) : ∀ {l l' : List (UniswapLpCycle Id)}, dropped.foldlM remove l = .ok l' →
      dropped.foldlM remove (arb :: l) = .ok (arb :: l') := by
  induction dropped with
  | nil =>
    intro l l' hl
    cases hl
    rfl
  | cons d dropped ih =>
    intro l l' hl
    rw [List.mem_cons, not_or] at h
    rw [List.foldlM_cons] at hl ⊢
    obtain ⟨next, hnext, hrest⟩ := bind_eq_ok.mp hl
    rw [remove] at hnext
    split at hnext
    · rename_i hmem
      cases hnext
      refine bind_eq_ok.mpr ⟨arb :: l.erase d, ?_, ih h.2 hrest⟩
      rw [remove, if_pos (List.mem_cons_of_mem arb hmem), List.erase_cons_tail (by simpa using h.1)]
    · cases hnext

/-- Dropping one by one what passes a test leaves what does not. -/
theorem foldlM_remove_filter (P : UniswapLpCycle Id → Bool) (l : List (UniswapLpCycle Id)) :
    (l.filter P).foldlM remove l = .ok (l.filter fun arb => !P arb) := by
  induction l with
  | nil => rfl
  | cons arb rest ih =>
    cases hP : P arb with
    | true =>
      have hfirst : remove (arb :: rest) arb = .ok rest := by
        rw [remove, if_pos (List.mem_cons_self ..), List.erase_cons_head]
      rw [List.filter_cons_of_pos hP, List.filter_cons_of_neg (by simp [hP]), List.foldlM_cons, hfirst]
      exact ih
    | false =>
      rw [List.filter_cons_of_neg (by simp [hP]), List.filter_cons_of_pos (by simp [hP])]
      apply foldlM_remove_cons _ ih
      intro hmem
      rw [(List.mem_filter.mp hmem).2] at hP
      cases hP

theorem dropConflicting_eq (most : UniswapLpCycle Id) (rest : List (UniswapLpCycle Id)) :
    dropConflicting most rest = .ok (compatible UniswapLpCycle.shares most rest) :=
  foldlM_remove_filter most.shares rest

/-- The loop never pops from an empty list and takes greedily. -/
theorem selectionLoop_eq (arbs chosen : List (UniswapLpCycle Id)) (hne : arbs ≠ [])
    (hnodup : (chosen ++ arbs).Nodup) :
    selectionLoop arbs chosen = .ok (chosen ++ greedy UniswapLpCycle.shares arbs) := by
  induction arbs using greedy.induct UniswapLpCycle.shares generalizing chosen with
  | case1 => exact absurd rfl hne
  | case2 most rest ih =>
    have hmost : most ∉ chosen := by
      intro hmem
      exact (List.nodup_append.mp hnodup).2.2 most hmem most (List.mem_cons_self ..) rfl
    have hrest : (chosen ++ [most] ++ compatible UniswapLpCycle.shares most rest).Nodup := by
      refine hnodup.sublist ?_
      rw [List.append_assoc]
      exact (List.filter_sublist.cons_cons most).append_left chosen
    rw [selectionLoop, if_neg hmost, greedy]
    split
    · rename_i e h
      rw [dropConflicting_eq] at h
      cases h
    · rename_i left h
      rw [dropConflicting_eq] at h
      cases h
      split
      · rename_i hnone
        rw [hnone, greedy]
      · rename_i hsome
        rw [ih _ hsome hrest, List.append_assoc]
        rfl

/-- The results with the arbs they are of; a result of an unknown arb has none. -/
def paired (results : List (ArbitrageCalculationResult Id)) :
    List (UniswapLpCycle Id × ArbitrageCalculationResult Id) :=
  results.filterMap fun result => (allArbs.get? result.id).map fun details => (details.lpCycle, result)

variable {allArbs}

theorem paired_fst (results : List (ArbitrageCalculationResult Id)) :
    (paired allArbs results).map Prod.fst = profitableArbs allArbs results := by
  rw [paired, profitableArbs, List.map_filterMap]
  simp only [Option.map_map, Function.comp_def]

theorem paired_snd {results : List (ArbitrageCalculationResult Id)}
    (h : ∀ result ∈ results, result.id ∈ allArbs.keys) :
    (paired allArbs results).map Prod.snd = results := by
  induction results with
  | nil => rfl
  | cons result rest ih =>
    obtain ⟨details, hdetails⟩ := Dict.mem_keys.mp (h result (List.mem_cons_self ..))
    have hrest := ih fun r hr => h r (List.mem_cons_of_mem result hr)
    rw [paired, List.filterMap_cons, hdetails]
    exact congrArg (result :: ·) hrest

theorem mem_paired (hown : AllArbs.OwnIds allArbs) {results : List (ArbitrageCalculationResult Id)}
    {p : UniswapLpCycle Id × ArbitrageCalculationResult Id} (h : p ∈ paired allArbs results) :
    p.2 ∈ results ∧ p.1 ∈ allArbs.cycles ∧ p.1.id = p.2.id := by
  obtain ⟨result, hresult, hp⟩ := List.mem_filterMap.mp h
  obtain ⟨details, hdetails, rfl⟩ := Option.map_eq_some_iff.mp hp
  exact ⟨hresult, AllArbs.mem_cycles.mpr ⟨_, _, hdetails, rfl⟩, hown _ _ hdetails⟩

/-- Arbs whose ids do not repeat find their own results. -/
theorem resultsByArbId_get? {pairs : List (UniswapLpCycle Id × ArbitrageCalculationResult Id)}
    (hids : (pairs.map fun p => p.1.id).Nodup)
    {p : UniswapLpCycle Id × ArbitrageCalculationResult Id} (hp : p ∈ pairs) :
    (Dict.ofList (pairs.map fun p => (p.1.id, p.2))).get? p.1.id = some p.2 := by
  rw [Dict.get?_ofList_of_functional]
  · exact List.mem_map.mpr ⟨p, hp, rfl⟩
  · intro x hx y hy hxy
    obtain ⟨q, hq, rfl⟩ := List.mem_map.mp hx
    obtain ⟨q', hq', rfl⟩ := List.mem_map.mp hy
    rw [List.inj_on_of_nodup_map hids hq hq' hxy]

theorem zipStrict_unzip {α β : Type} (pairs : List (α × β)) :
    zipStrict (pairs.map Prod.snd) (pairs.map Prod.fst) = .ok (pairs.map fun p => (p.2, p.1)) := by
  rw [zipStrict, if_pos (by rw [List.length_map, List.length_map]), List.zip_map']

section Known
variable {results : List (ArbitrageCalculationResult Id)}

/-- Every sorted result has its arb. -/
theorem paired_profitable (hknown : ∀ result ∈ results, result.id ∈ allArbs.keys) :
    (paired allArbs (allProfitableCalcResults results)).map Prod.snd =
      allProfitableCalcResults results :=
  paired_snd fun result hr => hknown result (mem_allProfitableCalcResults.mp hr).1

/-- No arb has two results. -/
theorem nodup_ids_paired (hown : AllArbs.OwnIds allArbs)
    (hknown : ∀ result ∈ results, result.id ∈ allArbs.keys)
    (hnodup : (results.map ArbitrageCalculationResult.id).Nodup) :
    ((paired allArbs (allProfitableCalcResults results)).map fun p => p.1.id).Nodup := by
  have hperm : (allProfitableCalcResults results).Perm
      (results.filter fun result => decide (0 ≤ result.profitAmount)) := sortBy_perm ..
  have h : ((allProfitableCalcResults results).map ArbitrageCalculationResult.id).Nodup :=
    (hperm.map _).nodup_iff.mpr (hnodup.sublist (List.filter_sublist.map _))
  rw [← paired_profitable hknown, List.map_map] at h
  rw [List.map_congr_left fun p hp => (mem_paired hown hp).2.2]
  exact h

theorem nodup_paired_fst (hown : AllArbs.OwnIds allArbs)
    (hknown : ∀ result ∈ results, result.id ∈ allArbs.keys)
    (hnodup : (results.map ArbitrageCalculationResult.id).Nodup) :
    ((paired allArbs (allProfitableCalcResults results)).map Prod.fst).Nodup := by
  have hids := nodup_ids_paired hown hknown hnodup
  rw [← Function.comp_def UniswapLpCycle.id Prod.fst, ← List.map_map] at hids
  exact hids.of_map

/-- Known ids that do not repeat: the loop ends, and takes greedily. -/
theorem selectionLoop_paired (hown : AllArbs.OwnIds allArbs)
    (hknown : ∀ result ∈ results, result.id ∈ allArbs.keys)
    (hnodup : (results.map ArbitrageCalculationResult.id).Nodup)
    (hne : profitableArbs allArbs (allProfitableCalcResults results) ≠ []) :
    selectionLoop (profitableArbs allArbs (allProfitableCalcResults results)) [] =
      .ok ((greedy (fun p p' => p.1.shares p'.1)
        (paired allArbs (allProfitableCalcResults results))).map Prod.fst) := by
  have harbs := nodup_paired_fst hown hknown hnodup
  rw [paired_fst] at harbs
  rw [selectionLoop_eq _ [] hne (by rw [List.nil_append]; exact harbs), List.nil_append, ← paired_fst,
    greedy_map]

/-- Nothing is raised then, and each arb that is left has its own result. -/
theorem selectArbs_eq (hown : AllArbs.OwnIds allArbs)
    (hknown : ∀ result ∈ results, result.id ∈ allArbs.keys)
    (hnodup : (results.map ArbitrageCalculationResult.id).Nodup) :
    selectArbs allArbs results = .ok (greedy (fun p p' => p.1.shares p'.1)
      (paired allArbs (allProfitableCalcResults results))) := by
  let profitable := allProfitableCalcResults results
  let pairs := paired allArbs profitable
  have hzip : zipStrict profitable (profitableArbs allArbs profitable) =
      .ok (pairs.map fun p => (p.2, p.1)) := by
    rw [← zipStrict_unzip, paired_fst, paired_profitable hknown]
  refine bind_eq_ok.mpr ⟨_, hzip, ?_⟩
  by_cases hnone : profitableArbs allArbs profitable = []
  · have hpairs : pairs = [] := by
      rw [← List.map_eq_nil_iff (f := Prod.fst), paired_fst]
      exact hnone
    show (if profitableArbs allArbs profitable = [] then _ else _) = Except.ok (greedy _ pairs)
    rw [if_pos hnone, hpairs, greedy]
    rfl
  · show (if profitableArbs allArbs profitable = [] then _ else _) = Except.ok (greedy _ pairs)
    rw [if_neg hnone]
    refine bind_eq_ok.mpr ⟨_, selectionLoop_paired hown hknown hnodup hnone, ?_⟩
    rw [List.mapM_map, mapM_ok (g := fun p : UniswapLpCycle Id × ArbitrageCalculationResult Id => p)]
    · rw [List.map_id']
    · intro p hp
      have hget := resultsByArbId_get? (nodup_ids_paired hown hknown hnodup)
        (greedy_subset _ _ hp)
      simp only [Function.comp_def, List.map_map]
      rw [hget]

end Known

/-! ### Of the arbs of one pool, the best -/

section OnePool
variable {calculateWithPool : UniswapLpCycle Id → Except PyError (Future Id)}
  {asCompleted : List (Future Id) → List (Future Id)} {poolAddress : Address}

omit [DecidableEq Id] in
theorem mem_findAffectedArbs {arb : UniswapLpCycle Id} (h : arb ∈ findAffectedArbs allArbs poolAddress) :
    arb ∈ allArbs.cycles ∧ arb.tradesThrough poolAddress = true :=
  ⟨List.mem_of_mem_filter h, UniswapLpCycle.tradesThrough_of_affectedBy (List.mem_filter.mp h).2⟩

theorem findAffectedArbs_ids (hown : AllArbs.OwnIds allArbs) :
    ((findAffectedArbs allArbs poolAddress).map UniswapLpCycle.id).Nodup := by
  refine List.Nodup.sublist (List.filter_sublist.map _) ?_
  rw [hown.map_id_cycles]
  exact allArbs.nodup_keys

/-- A result that is of an arb of the pool is paired with that arb. -/
theorem paired_arb (hown : AllArbs.OwnIds allArbs)
    (hid : ∀ arb ∈ findAffectedArbs allArbs poolAddress, ∀ result,
      calculateWithPool arb = .ok (.ok result) → result.id = arb.id)
    {results : List (ArbitrageCalculationResult Id)}
    (hresults : ∀ result ∈ results,
      Finished calculateWithPool (findAffectedArbs allArbs poolAddress) result)
    {p : UniswapLpCycle Id × ArbitrageCalculationResult Id} (hp : p ∈ paired allArbs results) :
    p.1 ∈ findAffectedArbs allArbs poolAddress ∧ calculateWithPool p.1 = .ok (.ok p.2) := by
  obtain ⟨hresult, hcycle, hpid⟩ := mem_paired hown hp
  obtain ⟨arb, harb, hcalculate⟩ := hresults p.2 hresult
  have heq : p.1 = arb := hown.eq_of_id_eq hcycle (mem_findAffectedArbs harb).1
    (hpid.trans (hid arb harb p.2 hcalculate))
  rw [heq]
  exact ⟨harb, hcalculate⟩

omit [DecidableEq Id] in
/-- Sorted results begin with a best one. -/
theorem profit_le_top {results profitable : List (ArbitrageCalculationResult Id)}
    {top : ArbitrageCalculationResult Id}
    (hsorted : allProfitableCalcResults results = top :: profitable) :
    0 ≤ top.profitAmount ∧ ∀ result ∈ results, result.profitAmount ≤ top.profitAmount := by
  have hmem : ∀ result, result ∈ top :: profitable ↔ result ∈ results ∧ 0 ≤ result.profitAmount := by
    intro result
    rw [← hsorted, mem_allProfitableCalcResults]
  have htop := ((hmem top).mp (List.mem_cons_self ..)).2
  refine ⟨htop, fun result hr => ?_⟩
  by_cases hloss : 0 ≤ result.profitAmount
  · rcases List.mem_cons.mp ((hmem result).mpr ⟨hr, hloss⟩) with rfl | hlater
    · exact Int.le_refl _
    · have hpairwise := allProfitableCalcResults_sorted results
      rw [hsorted, List.pairwise_cons] at hpairwise
      exact hpairwise.1 result hlater
  · omega

/-- The results of a pool's arbs are known, one for each arb at most, so what is left of
them is chosen greedily. -/
theorem processOnchainArbs_eq (hown : AllArbs.OwnIds allArbs)
    (hid : ∀ arb ∈ findAffectedArbs allArbs poolAddress, ∀ result,
      calculateWithPool arb = .ok (.ok result) → result.id = arb.id)
    (horder : ∀ futures, (asCompleted futures).Perm futures) :
    ∃ results, (∀ result, result ∈ results ↔
        Finished calculateWithPool (findAffectedArbs allArbs poolAddress) result) ∧
      (∀ result ∈ results, result.id ∈ allArbs.keys) ∧
      processOnchainArbs allArbs calculateWithPool asCompleted (findAffectedArbs allArbs poolAddress) =
        .ok (greedy (fun p p' => p.1.shares p'.1)
          (paired allArbs (allProfitableCalcResults results))) := by
  let futures := calculationFutures calculateWithPool (findAffectedArbs allArbs poolAddress)
  let results := calculationResults (asCompleted futures)
  have hperm : results.Perm (calculationResults futures) := (horder futures).filterMap _
  have hmem : ∀ result, result ∈ results ↔
      Finished calculateWithPool (findAffectedArbs allArbs poolAddress) result :=
    fun result => hperm.mem_iff.trans mem_calculationResults
  have hnodup : (results.map ArbitrageCalculationResult.id).Nodup :=
    (hperm.map _).nodup_iff.mpr ((findAffectedArbs_ids hown).sublist (calculationResults_ids hid))
  have hknown : ∀ result ∈ results, result.id ∈ allArbs.keys := by
    intro result hr
    obtain ⟨arb, harb, hcalculate⟩ := (hmem result).mp hr
    rw [hid arb harb result hcalculate, ← hown.map_id_cycles]
    exact List.mem_map.mpr ⟨arb, (mem_findAffectedArbs harb).1, rfl⟩
  refine ⟨results, hmem, hknown, ?_⟩
  rw [processOnchainArbs]
  split
  · rename_i hnone
    have hempty : results = [] := by
      rw [List.eq_nil_iff_forall_not_mem]
      intro result hr
      obtain ⟨arb, harb, _⟩ := (hmem result).mp hr
      rw [List.length_eq_zero_iff.mp hnone] at harb
      cases harb
    have hnothing : paired allArbs (allProfitableCalcResults results) = [] := by
      rw [hempty]
      rfl
    rw [hnothing, greedy]
  · exact selectArbs_eq hown hknown hnodup

/-- Arbs that all trade through one pool: the first of the sorted results drops the rest. -/
theorem greedy_one_pool {results profitable : List (ArbitrageCalculationResult Id)}
    {top : ArbitrageCalculationResult Id}
    (hsorted : allProfitableCalcResults results = top :: profitable)
    (hknown : ∀ result ∈ results, result.id ∈ allArbs.keys)
    (hthrough : ∀ p ∈ paired allArbs (allProfitableCalcResults results),
      p.1.tradesThrough poolAddress = true) :
    ∃ arb, (arb, top) ∈ paired allArbs (allProfitableCalcResults results) ∧
      greedy (fun p p' => p.1.shares p'.1) (paired allArbs (allProfitableCalcResults results)) =
        [(arb, top)] := by
  have hsnd : (paired allArbs (allProfitableCalcResults results)).map Prod.snd = top :: profitable := by
    rw [← hsorted]
    exact paired_snd fun result hr => hknown result (mem_allProfitableCalcResults.mp hr).1
  cases hpairs : paired allArbs (allProfitableCalcResults results) with
  | nil =>
    rw [hpairs] at hsnd
    cases hsnd
  | cons p rest =>
    rw [hpairs] at hsnd hthrough
    have htop : p.2 = top := (List.cons.inj hsnd).1
    refine ⟨p.1, ?_, ?_⟩
    · rw [← htop]
      exact List.mem_cons_self ..
    · rw [greedy_cons_of_forall, ← htop]
      intro q hq
      exact UniswapLpCycle.shares_of_tradesThrough (hthrough p (List.mem_cons_self ..))
        (hthrough q (List.mem_cons_of_mem p hq))

/-- Whatever fails and in whatever order the rest finishes, of the arbs found for a pool
none is selected if every result is a loss, and otherwise one alone, of which no result
is better. -/
theorem one_best_arb_selected (allArbs : AllArbs Id) (hown : AllArbs.OwnIds allArbs)
    (poolAddress : Address)
    (calculateWithPool : UniswapLpCycle Id → Except PyError (Future Id))
    (hid : ∀ arb ∈ findAffectedArbs allArbs poolAddress, ∀ result,
      calculateWithPool arb = .ok (.ok result) → result.id = arb.id)
    (asCompleted : List (Future Id) → List (Future Id))
    (horder : ∀ futures, (asCompleted futures).Perm futures) :
    let arbs := findAffectedArbs allArbs poolAddress
    ((∀ result, Finished calculateWithPool arbs result → result.profitAmount < 0) →
      processOnchainArbs allArbs calculateWithPool asCompleted arbs = .ok []) ∧
    ((∃ result, Finished calculateWithPool arbs result ∧ 0 ≤ result.profitAmount) →
      ∃ arb result, processOnchainArbs allArbs calculateWithPool asCompleted arbs =
          .ok [(arb, result)] ∧
        arb ∈ arbs ∧ calculateWithPool arb = .ok (.ok result) ∧ 0 ≤ result.profitAmount ∧
        ∀ other, Finished calculateWithPool arbs other →
          other.profitAmount ≤ result.profitAmount) := by
  intro arbs
  obtain ⟨results, hmem, hknown, hselect⟩ := processOnchainArbs_eq hown hid horder
  rw [hselect]
  refine ⟨fun hloss => ?_, fun ⟨gain, hfinished, hgain⟩ => ?_⟩
  · have hnone : allProfitableCalcResults results = [] := by
      rw [List.eq_nil_iff_forall_not_mem]
      intro result hr
      obtain ⟨hr, hgain⟩ := mem_allProfitableCalcResults.mp hr
      exact absurd hgain (Int.not_le.mpr (hloss result ((hmem result).mp hr)))
    have hnothing : paired allArbs (allProfitableCalcResults results) = [] := by
      rw [hnone]
      rfl
    rw [hnothing, greedy]
  · have hpaired : ∀ p ∈ paired allArbs (allProfitableCalcResults results),
        p.1 ∈ arbs ∧ calculateWithPool p.1 = .ok (.ok p.2) := fun p hp =>
      paired_arb hown hid
        (fun result hr => (hmem result).mp (mem_allProfitableCalcResults.mp hr).1) hp
    have hmember := mem_allProfitableCalcResults.mpr ⟨(hmem gain).mpr hfinished, hgain⟩
    obtain ⟨top, profitable, hsorted⟩ := List.exists_cons_of_ne_nil (List.ne_nil_of_mem hmember)
    obtain ⟨arb, hp, hgreedy⟩ := greedy_one_pool hsorted hknown fun p hp =>
      (mem_findAffectedArbs (hpaired p hp).1).2
    obtain ⟨harb, hcalculate⟩ := hpaired _ hp
    obtain ⟨htop, hbest⟩ := profit_le_top hsorted
    exact ⟨arb, top, by rw [hgreedy], harb, hcalculate, htop, fun other hother =>
      hbest other ((hmem other).mpr hother)⟩

end OnePool
end Selection

/-- Three arbs through pool 2. -/
def threeArbs : AllArbs Nat :=
  Dict.ofList [(7, ⟨⟨7, Address.fill 9, [⟨Address.fill 1, 0⟩, ⟨Address.fill 2, 0⟩], 1⟩, "load"⟩),
    (8, ⟨⟨8, Address.fill 9, [⟨Address.fill 2, 0⟩, ⟨Address.fill 1, 0⟩], 1⟩, "load"⟩),
    (9, ⟨⟨9, Address.fill 9, [⟨Address.fill 1, 0⟩, ⟨Address.fill 2, 0⟩, ⟨Address.fill 3, 0⟩], 1⟩,
      "load"⟩)]

/-- The second fails, the others gain as much as their ids. -/
def gainsById (arb : UniswapLpCycle Nat) : Except PyError (Future Nat) :=
  if arb.id = 8 then .ok (.error (.exception "no arbitrage")) else .ok (.ok ⟨arb.id, arb.id⟩)

theorem threeArbs_ownIds : AllArbs.OwnIds threeArbs := by
  have hitems : ∀ p ∈ threeArbs.items, p.2.lpCycle.id = p.1 := by decide
  exact fun id details h => hitems (id, details) (Dict.get?_eq_some.mp h)

theorem gainsById_id (arb : UniswapLpCycle Nat) (result : ArbitrageCalculationResult Nat)
    (h : gainsById arb = .ok (.ok result)) : result.id = arb.id := by
  rw [gainsById] at h
  split at h
  · cases h
  · cases h
    rfl

theorem one_best_arb_selected_threeArbs : ∃ arb result,
    processOnchainArbs threeArbs gainsById List.reverse
      (findAffectedArbs threeArbs (Address.fill 2)) = .ok [(arb, result)] ∧
    9 ≤ result.profitAmount := by
  have hlast : Finished gainsById (findAffectedArbs threeArbs (Address.fill 2)) ⟨9, 9⟩ :=
    ⟨⟨9, Address.fill 9, [⟨Address.fill 1, 0⟩, ⟨Address.fill 2, 0⟩, ⟨Address.fill 3, 0⟩], 1⟩,
      by decide, rfl⟩
  obtain ⟨arb, result, hselected, _, _, _, hbest⟩ :=
    (one_best_arb_selected threeArbs threeArbs_ownIds (Address.fill 2) gainsById
      (fun arb _ => gainsById_id arb) List.reverse List.reverse_perm).2 ⟨⟨9, 9⟩, hlast, by decide⟩
  exact ⟨arb, result, hselected, hbest ⟨9, 9⟩ hlast⟩

end CreamBots.App
