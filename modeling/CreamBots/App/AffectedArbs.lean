import CreamBots.App.Cycle
import CreamBots.Data.Raise

/-! Which arbs a pool update concerns, and the loop that has them calculated.

`find_onchain_arbs` takes an address from `pools_to_process`, finds the arbs through
that pool and starts a task for them. What it calculates is, for each address it takes,
what `find_affected_arbs` returns (`Finder.Working`), and that misses the cycles of three
pools that start or end at the pool (`affected_arbs_exact`, `end_pool_missed`). -/
namespace CreamBots.App
open Data Builders

variable {Id : Type}

/-! ### find_affected_arbs -/

/-- The test that `find_affected_arbs` makes of a cycle. -/
def UniswapLpCycle.affectedBy (arb : UniswapLpCycle Id) (poolAddress : Address) : Bool :=
  match arb.swapPools with
  | [first, second] => decide (first.address = poolAddress) || decide (second.address = poolAddress)
  | [_, middle, _] => decide (middle.address = poolAddress)
  | _ => false

def findAffectedArbs (allArbs : AllArbs Id) (poolAddress : Address) : List (UniswapLpCycle Id) :=
  allArbs.cycles.filter fun arb => arb.affectedBy poolAddress

/-- The cycles that trade through a pool. -/
def arbsThrough (allArbs : AllArbs Id) (poolAddress : Address) : List (UniswapLpCycle Id) :=
  allArbs.cycles.filter fun arb => arb.tradesThrough poolAddress

/-- A cycle of three pools that has the pool at an end and not in the middle. -/
def UniswapLpCycle.AtEndOnly (arb : UniswapLpCycle Id) (poolAddress : Address) : Prop :=
  ∃ first middle last, arb.swapPools = [first, middle, last] ∧ middle.address ≠ poolAddress ∧
    (first.address = poolAddress ∨ last.address = poolAddress)

/-- Two or three pools, as the builders produce. -/
def UniswapLpCycle.Short (arb : UniswapLpCycle Id) : Prop :=
  arb.swapPools.length = 2 ∨ arb.swapPools.length = 3

theorem UniswapLpCycle.tradesThrough_of_affectedBy {arb : UniswapLpCycle Id} {poolAddress : Address}
    (h : arb.affectedBy poolAddress = true) : arb.tradesThrough poolAddress = true := by
  rw [tradesThrough_iff]
  unfold affectedBy at h
  split at h
  · rename_i first second hpools
    rw [hpools]
    rcases (Bool.or_eq_true ..).mp h with ha | ha
    · exact ⟨first, by simp, of_decide_eq_true ha⟩
    · exact ⟨second, by simp, of_decide_eq_true ha⟩
  · rename_i first middle last hpools
    rw [hpools]
    exact ⟨middle, by simp, of_decide_eq_true h⟩
  · cases h

/-- The test fails a cycle through the pool just where the pool is at an end only. -/
theorem UniswapLpCycle.Short.affectedBy_iff {arb : UniswapLpCycle Id} (h : arb.Short)
    (poolAddress : Address) :
    arb.affectedBy poolAddress = arb.tradesThrough poolAddress ↔ ¬arb.AtEndOnly poolAddress := by
  unfold affectedBy tradesThrough AtEndOnly
  rcases h with h | h
  · obtain ⟨first, second, hpools⟩ := List.length_eq_two.mp h
    simp [hpools]
  · obtain ⟨first, middle, last, hpools⟩ := List.length_eq_three.mp h
    by_cases hm : middle.address = poolAddress
    · simp [hpools, hm]
    · by_cases hf : first.address = poolAddress
      · simp [hpools, hm, hf]
      · by_cases hl : last.address = poolAddress
        · simp [hpools, hm, hl]
        · simp [hpools, hm, hf, hl]

/-- The list returned is right just where the test is right of every cycle. -/
theorem findAffectedArbs_perm_iff {allArbs : AllArbs Id} {poolAddress : Address} :
    (findAffectedArbs allArbs poolAddress).Perm (arbsThrough allArbs poolAddress) ↔
      ∀ arb ∈ allArbs.cycles, arb.affectedBy poolAddress = arb.tradesThrough poolAddress := by
  refine ⟨fun hperm arb harb => ?_, fun h => ?_⟩
  · rw [Bool.eq_iff_iff]
    refine ⟨UniswapLpCycle.tradesThrough_of_affectedBy, fun hthrough => ?_⟩
    have hmem := hperm.mem_iff.mpr (List.mem_filter.mpr ⟨harb, hthrough⟩)
    exact (List.mem_filter.mp hmem).2
  · rw [findAffectedArbs, List.filter_congr h]
    exact .refl _

/-! ### find_onchain_arbs -/

/-- The queue with the count of its unfinished items, and what the finder has done:
the addresses it was given, in order, and the arbs of each task it has started. -/
structure Finder (Id : Type) where
  poolsToProcess : List Address
  unfinished : Nat
  taken : List Address
  tasks : List (List (UniswapLpCycle Id))

namespace Finder

def start : Finder Id := ⟨[], 0, [], []⟩

/-- `pools_to_process.put`. -/
def put (finder : Finder Id) (poolAddress : Address) : Finder Id :=
  {finder with
    poolsToProcess := finder.poolsToProcess ++ [poolAddress]
    unfinished := finder.unfinished + 1}

/-- `pools_to_process.task_done`. -/
def taskDone (finder : Finder Id) : Except PyError (Finder Id) :=
  if finder.unfinished = 0 then .error .valueError
  else .ok {finder with unfinished := finder.unfinished - 1}

/-- A task for the arbs found, if there are any. An exception is logged. -/
def createTask (finder : Finder Id) : Except PyError (List (UniswapLpCycle Id)) → Finder Id
  | .ok [] => finder
  | .ok affectedArbs => {finder with tasks := finder.tasks ++ [affectedArbs]}
  | .error _ => finder

/-- One round of `while True`; `get` waits while the queue is empty. -/
def iteration (lookup : Address → Except PyError (List (UniswapLpCycle Id))) (finder : Finder Id) :
    Except PyError (Finder Id) :=
  match finder.poolsToProcess with
  | [] => .ok finder
  | poolAddress :: rest =>
    let got := {finder with poolsToProcess := rest, taken := finder.taken ++ [poolAddress]}
    (got.createTask (lookup poolAddress)).taskDone

/-- An update handler's put, or a round of the finder. -/
inductive Step where
  | put (poolAddress : Address)
  | iteration

def step (lookup : Address → Except PyError (List (UniswapLpCycle Id))) (finder : Finder Id) :
    Step → Except PyError (Finder Id)
  | .put poolAddress => .ok (finder.put poolAddress)
  | .iteration => finder.iteration lookup

/-- The finder over a run, its lookups those of `find_affected_arbs`. -/
def after (allArbs : AllArbs Id) (finder : Finder Id) (steps : List Step) :
    Except PyError (Finder Id) :=
  steps.foldlM (step fun poolAddress => .ok (findAffectedArbs allArbs poolAddress)) finder

/-- The addresses put in the queue. -/
def puts (steps : List Step) : List Address :=
  steps.filterMap fun s =>
    match s with
    | .put poolAddress => some poolAddress
    | .iteration => none

/-- A task for each of these addresses that something is found for. -/
def tasksFor (allArbs : AllArbs Id) (taken : List Address) : List (List (UniswapLpCycle Id)) :=
  (taken.map (findAffectedArbs allArbs)).filter fun task => !task.isEmpty

/-- What a run keeps: every item is counted until its round is done, and each time that an
address is taken a task is started for its arbs. -/
structure Working (allArbs : AllArbs Id) (finder : Finder Id) : Prop where
  counted : finder.unfinished = finder.poolsToProcess.length
  tasks : finder.tasks = tasksFor allArbs finder.taken

variable {allArbs : AllArbs Id} {finder : Finder Id}

theorem tasksFor_append (before after : List Address) :
    tasksFor allArbs (before ++ after) = tasksFor allArbs before ++ tasksFor allArbs after := by
  rw [tasksFor, List.map_append, List.filter_append]
  rfl

/-- No task if nothing is found, else one with all that is. -/
theorem tasksFor_cons (poolAddress : Address) (rest : List Address) :
    tasksFor allArbs (poolAddress :: rest) =
      if findAffectedArbs allArbs poolAddress = [] then tasksFor allArbs rest
      else findAffectedArbs allArbs poolAddress :: tasksFor allArbs rest := by
  rw [tasksFor, List.map_cons, List.filter_cons]
  cases findAffectedArbs allArbs poolAddress with
  | nil => rfl
  | cons _ _ => rfl

theorem createTask_queue (outcome : Except PyError (List (UniswapLpCycle Id))) :
    (finder.createTask outcome).poolsToProcess = finder.poolsToProcess ∧
      (finder.createTask outcome).unfinished = finder.unfinished ∧
      (finder.createTask outcome).taken = finder.taken := by
  rcases outcome with _ | _ | _
  · exact ⟨rfl, rfl, rfl⟩
  · exact ⟨rfl, rfl, rfl⟩
  · exact ⟨rfl, rfl, rfl⟩

theorem createTask_tasks (poolAddress : Address) :
    (finder.createTask (.ok (findAffectedArbs allArbs poolAddress))).tasks =
      finder.tasks ++ tasksFor allArbs [poolAddress] := by
  rw [tasksFor_cons]
  cases findAffectedArbs allArbs poolAddress with
  | nil => exact (List.append_nil _).symm
  | cons _ _ => rfl

/-- A round takes the first address and does not raise. -/
theorem Working.iteration (h : Working allArbs finder) :
    ∃ next, finder.iteration (fun poolAddress => .ok (findAffectedArbs allArbs poolAddress)) =
        .ok next ∧ Working allArbs next ∧
      next.taken ++ next.poolsToProcess = finder.taken ++ finder.poolsToProcess := by
  rw [Finder.iteration]
  cases hqueue : finder.poolsToProcess with
  | nil => exact ⟨finder, rfl, h, by rw [hqueue]⟩
  | cons poolAddress rest =>
    have hcount := h.counted
    rw [hqueue, List.length_cons] at hcount
    let got := {finder with poolsToProcess := rest, taken := finder.taken ++ [poolAddress]}
    let asked := got.createTask (.ok (findAffectedArbs allArbs poolAddress))
    obtain ⟨hpools, hunfinished, htaken⟩ : asked.poolsToProcess = rest ∧
        asked.unfinished = finder.unfinished ∧ asked.taken = finder.taken ++ [poolAddress] :=
      createTask_queue ..
    refine ⟨{asked with unfinished := asked.unfinished - 1}, ?_, ⟨?_, ?_⟩, ?_⟩
    · exact if_neg (by rw [hunfinished]; omega)
    · show asked.unfinished - 1 = asked.poolsToProcess.length
      rw [hunfinished, hpools, hcount]
      rfl
    · have htasks : asked.tasks = finder.tasks ++ tasksFor allArbs [poolAddress] := createTask_tasks ..
      show asked.tasks = tasksFor allArbs asked.taken
      rw [htasks, htaken, tasksFor_append, h.tasks]
    · show asked.taken ++ asked.poolsToProcess = _
      rw [htaken, hpools, List.append_assoc]
      rfl

/-- The run never raises, and what was put and is not taken is still in the queue. -/
theorem Working.after (steps : List Step) : ∀ {finder : Finder Id}, Working allArbs finder →
    ∃ next, finder.after allArbs steps = .ok next ∧ Working allArbs next ∧
      next.taken ++ next.poolsToProcess =
        finder.taken ++ finder.poolsToProcess ++ puts steps := by
  induction steps with
  | nil => exact fun h => ⟨_, rfl, h, (List.append_nil _).symm⟩
  | cons s rest ih =>
    intro finder h
    cases s with
    | put poolAddress =>
      have hput : Working allArbs (finder.put poolAddress) := by
        refine ⟨?_, h.tasks⟩
        show finder.unfinished + 1 = (finder.poolsToProcess ++ [poolAddress]).length
        rw [h.counted, List.length_append, List.length_singleton]
      obtain ⟨next, hnext, hworking, horder⟩ := ih hput
      refine ⟨next, hnext, hworking, ?_⟩
      rw [horder]
      show finder.taken ++ (finder.poolsToProcess ++ [poolAddress]) ++ puts rest =
        finder.taken ++ finder.poolsToProcess ++ (poolAddress :: puts rest)
      simp
    | iteration =>
      obtain ⟨middle, hmiddle, hworking, horder⟩ := h.iteration
      obtain ⟨next, hnext, hworking', horder'⟩ := ih hworking
      refine ⟨next, ?_, hworking', horder'.trans (by rw [horder]; rfl)⟩
      rw [Finder.after, List.foldlM_cons]
      exact bind_eq_ok.mpr ⟨middle, hmiddle, hnext⟩

theorem working_start : Working allArbs (start : Finder Id) := ⟨rfl, rfl⟩

end Finder

/-! ### What is found -/

/-- Each time that the address is taken, a task is started for all cycles through the pool, if
there are any. -/
def Finder.Recalculates (allArbs : AllArbs Id) (finder : Finder Id) (poolAddress : Address) : Prop :=
  ∀ before after, finder.taken = before ++ poolAddress :: after →
    (arbsThrough allArbs poolAddress = [] ∧
        finder.tasks = tasksFor allArbs before ++ tasksFor allArbs after) ∨
      ∃ task, finder.tasks = tasksFor allArbs before ++ task :: tasksFor allArbs after ∧
        task.Perm (arbsThrough allArbs poolAddress)

variable {allArbs : AllArbs Id} {finder : Finder Id} {poolAddress : Address}

theorem Finder.Working.recalculates (h : Finder.Working allArbs finder)
    (hperm : (findAffectedArbs allArbs poolAddress).Perm (arbsThrough allArbs poolAddress)) :
    finder.Recalculates allArbs poolAddress := by
  intro before after htaken
  rw [h.tasks, htaken, tasksFor_append, tasksFor_cons]
  by_cases hnone : findAffectedArbs allArbs poolAddress = []
  · rw [if_pos hnone]
    rw [hnone] at hperm
    exact .inl ⟨hperm.nil_eq.symm, rfl⟩
  · rw [if_neg hnone]
    exact .inr ⟨_, rfl, hperm⟩

/-- Taken once is enough for a task. -/
theorem Finder.Recalculates.calculated (h : finder.Recalculates allArbs poolAddress)
    (htaken : poolAddress ∈ finder.taken) {arb : UniswapLpCycle Id}
    (harb : arb ∈ arbsThrough allArbs poolAddress) : ∃ task ∈ finder.tasks, arb ∈ task := by
  obtain ⟨before, after, hsplit⟩ := List.append_of_mem htaken
  rcases h before after hsplit with ⟨hnone, _⟩ | ⟨task, htasks, hperm⟩
  · rw [hnone] at harb
    cases harb
  · refine ⟨task, ?_, hperm.mem_iff.mpr harb⟩
    rw [htasks]
    exact List.mem_append_right _ (List.mem_cons_self ..)

/-- The arbs found for a pool are the cycles through it, and each time that it is taken from
the queue all of them are calculated, if and only if no cycle of three pools has the pool at
an end only. -/
theorem affected_arbs_exact (allArbs : AllArbs Id) (hshort : ∀ arb ∈ allArbs.cycles, arb.Short)
    (poolAddress : Address) :
    ((findAffectedArbs allArbs poolAddress).Perm (arbsThrough allArbs poolAddress) ∧
      ∀ steps, ∃ finder, Finder.start.after allArbs steps = .ok finder ∧
        finder.taken ++ finder.poolsToProcess = Finder.puts steps ∧
        finder.Recalculates allArbs poolAddress ∧
        (poolAddress ∈ finder.taken → ∀ arb ∈ arbsThrough allArbs poolAddress,
          ∃ task ∈ finder.tasks, arb ∈ task)) ↔
      ∀ arb ∈ allArbs.cycles, ¬arb.AtEndOnly poolAddress := by
  have htest : (∀ arb ∈ allArbs.cycles, arb.affectedBy poolAddress = arb.tradesThrough poolAddress) ↔
      ∀ arb ∈ allArbs.cycles, ¬arb.AtEndOnly poolAddress :=
    forall₂_congr fun arb harb => (hshort arb harb).affectedBy_iff poolAddress
  rw [← htest, ← findAffectedArbs_perm_iff]
  refine ⟨And.left, fun hperm => ⟨hperm, fun steps => ?_⟩⟩
  have hstart : Finder.Working allArbs Finder.start := Finder.working_start
  obtain ⟨finder, hfinder, hworking, horder⟩ := hstart.after steps
  have hrecalculates := hworking.recalculates hperm
  exact ⟨finder, hfinder, horder, hrecalculates, fun htaken _ harb => hrecalculates.calculated htaken harb⟩

/-- One cycle through the pools 1, 2 and 3. -/
def oneTriangle : AllArbs Nat :=
  Dict.ofList [(7, ⟨⟨7, Address.fill 9, [⟨Address.fill 1, 0⟩, ⟨Address.fill 2, 0⟩, ⟨Address.fill 3, 0⟩],
    1⟩, "load"⟩)]

theorem oneTriangle_short : ∀ arb ∈ oneTriangle.cycles, arb.Short := by
  intro arb harb
  rw [List.mem_singleton.mp harb]
  exact .inr rfl

/-- For its first pool nothing is found, and an update of that pool has nothing
calculated. -/
theorem end_pool_missed : ¬∀ (allArbs : AllArbs Nat), (∀ arb ∈ allArbs.cycles, arb.Short) →
    ∀ poolAddress, (findAffectedArbs allArbs poolAddress).Perm (arbsThrough allArbs poolAddress) ∧
      ∀ steps, ∃ finder, Finder.start.after allArbs steps = .ok finder ∧
        finder.taken ++ finder.poolsToProcess = Finder.puts steps ∧
        finder.Recalculates allArbs poolAddress ∧
        (poolAddress ∈ finder.taken → ∀ arb ∈ arbsThrough allArbs poolAddress,
          ∃ task ∈ finder.tasks, arb ∈ task) := by
  intro h
  have hlength := (h oneTriangle oneTriangle_short (Address.fill 1)).1.length_eq
  revert hlength
  decide

/-- For its middle pool it is. -/
theorem affected_arbs_exact_middle :
    (findAffectedArbs oneTriangle (Address.fill 2)).Perm (arbsThrough oneTriangle (Address.fill 2)) := by
  refine ((affected_arbs_exact oneTriangle oneTriangle_short (Address.fill 2)).mpr ?_).1
  intro arb harb ⟨first, middle, last, hpools, hmiddle, _⟩
  rw [List.mem_singleton.mp harb] at hpools
  cases hpools
  exact hmiddle rfl

end CreamBots.App
