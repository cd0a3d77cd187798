import CreamBots.App.Notifications
import CreamBots.App.OnchainArbs
import CreamBots.App.PoolIdentity

/-! The trading loop, with all its tasks at once.

The handlers, the tasks that put addresses, the finder and any number of tasks of
`process_onchain_arbs` take turns at their `await`s: a task submits the calculations of its
arbs one by one, and between two of them anything else may happen. What is left to do
for an updated pool moves from the put tasks to the queue, from there to a task, and is
done when its arbs are submitted (`Pending.step`). So after every completed update each
arb found for the pool is calculated again, unless something is still to be done
(`updates_calculated`), and whatever came between its calculations a task announces the
best of its own results alone (`best_result_announced`). -/
namespace CreamBots.App
open Data Builders

variable {Topic σ τ Id : Type}

/-! ### The tasks -/

/-- What `calculate_with_pool` does at some moment. A result has the id of its arb. -/
structure Calculation (Id : Type) where
  calculateWithPool : UniswapLpCycle Id → Except PyError (Future Id)
  id_eq : ∀ arb result, calculateWithPool arb = .ok (.ok result) → result.id = arb.id

/-- The order in which `asyncio.as_completed` gives the futures back. -/
structure Completion (Id : Type) where
  asCompleted : List (Future Id) → List (Future Id)
  perm : ∀ futures, (asCompleted futures).Perm futures

/-- A task of `process_onchain_arbs`: the arbs it was started for, and what submitting the
first of them has come to. -/
structure OnchainTask (Id : Type) where
  arbHelpers : List (UniswapLpCycle Id)
  submitted : List (Except PyError (Future Id))

namespace OnchainTask

/-- The arbs whose calculation is still to be submitted. -/
def remaining (task : OnchainTask Id) : List (UniswapLpCycle Id) :=
  task.arbHelpers.drop task.submitted.length

/-- The next round of `for arb_helper in arb_helpers`. -/
def submit (task : OnchainTask Id) (calculation : Calculation Id) : OnchainTask Id :=
  match task.remaining with
  | [] => task
  | arbHelper :: _ =>
    {task with submitted := task.submitted ++ [calculation.calculateWithPool arbHelper]}

/-- What is done once the last future has completed. -/
def select [DecidableEq Id] (allArbs : AllArbs Id) (completion : Completion Id) (task : OnchainTask Id) :
    Except PyError (List (UniswapLpCycle Id × ArbitrageCalculationResult Id)) :=
  selectArbs allArbs (calculationResults
    (completion.asCompleted (task.submitted.filterMap Except.toOption)))

end OnchainTask

/-- The announcements of a task that is done. -/
structure Announced (Id : Type) where
  task : OnchainTask Id
  outcome : Except PyError (List (UniswapLpCycle Id × ArbitrageCalculationResult Id))

/-- The handlers and the finder, and the tasks that the finder has started. -/
structure Trading (σ τ Id : Type) where
  pipeline : Pipeline σ τ Id
  running : List (OnchainTask Id)
  announced : List (Announced Id)

namespace Trading

/-- Whose turn it is: a handler is called, a put task runs, the finder does a round, a
running task submits a calculation, or one has all its futures completed. -/
inductive Step (Topic σ τ Id : Type) where
  | handle (call : Handling Topic σ τ)
  | runPut (i : Nat)
  | iterate
  | submit (i : Nat) (calculation : Calculation Id)
  | select (i : Nat) (completion : Completion Id)

def start (poolManagers : Dict Address TrackedPools) (helpers : Heap σ) (snapshot : τ) : Trading σ τ Id :=
  ⟨.start poolManagers helpers snapshot, [], []⟩

section Run
variable [DecidableEq Id] (abi : EthAbi Topic) (allArbs : AllArbs Id)

/-- A round of the finder; the tasks that it creates are running. -/
def iterate (w : Trading σ τ Id) : Except PyError (Trading σ τ Id) := do
  let finder ← w.pipeline.finder.iteration fun poolAddress => .ok (findAffectedArbs allArbs poolAddress)
  let created := finder.tasks.drop w.pipeline.finder.tasks.length
  return {w with
    pipeline := {w.pipeline with finder}
    running := w.running ++ created.map fun arbHelpers => ⟨arbHelpers, []⟩}

def submit (w : Trading σ τ Id) (i : Nat) (calculation : Calculation Id) : Trading σ τ Id :=
  match w.running[i]? with
  | none => w
  | some task => {w with running := w.running.set i (task.submit calculation)}

def select (w : Trading σ τ Id) (i : Nat) (completion : Completion Id) : Trading σ τ Id :=
  match w.running[i]? with
  | none => w
  | some task =>
    if task.remaining = [] then
      {w with
        running := w.running.eraseIdx i
        announced := w.announced ++ [⟨task, task.select allArbs completion⟩]}
    else w

def step (w : Trading σ τ Id) : Step Topic σ τ Id → Except PyError (Trading σ τ Id)
  | .handle call => .ok {w with
      pipeline := {w.pipeline with handlers := call.next abi w.pipeline.handlers}}
  | .runPut i => .ok {w with pipeline := w.pipeline.runPut i}
  | .iterate => w.iterate allArbs
  | .submit i calculation => .ok (w.submit i calculation)
  | .select i completion => .ok (w.select allArbs i completion)

def after (w : Trading σ τ Id) (steps : List (Step Topic σ τ Id)) : Except PyError (Trading σ τ Id) :=
  steps.foldlM (step abi allArbs) w

end Run

/-! ### What every step keeps -/

/-- A task was started for the arbs of an address that was taken, and its results are of
its arbs. -/
structure Started (allArbs : AllArbs Id) (taken : List Address) (task : OnchainTask Id) : Prop where
  found : ∃ poolAddress ∈ taken, task.arbHelpers = findAffectedArbs allArbs poolAddress
  own : List.Forall₂ (fun arb outcome => ∀ result, outcome = .ok (.ok result) → result.id = arb.id)
    (task.arbHelpers.take task.submitted.length) task.submitted

structure Working (allArbs : AllArbs Id) [DecidableEq Id] (w : Trading σ τ Id) : Prop where
  counted : w.pipeline.finder.unfinished = w.pipeline.finder.poolsToProcess.length
  running : ∀ task ∈ w.running, Started allArbs w.pipeline.finder.taken task
  announced : ∀ a ∈ w.announced, Started allArbs w.pipeline.finder.taken a.task ∧
    a.task.remaining = [] ∧ ∃ completion, a.outcome = a.task.select allArbs completion

variable {allArbs : AllArbs Id} {w : Trading σ τ Id}

theorem Started.mono {taken taken' : List Address} {task : OnchainTask Id}
    (h : Started allArbs taken task) (hsub : taken ⊆ taken') : Started allArbs taken' task := by
  obtain ⟨poolAddress, htaken, hfound⟩ := h.found
  exact ⟨⟨poolAddress, hsub htaken, hfound⟩, h.own⟩

/-- Submitting once more. -/
theorem Started.submit {taken : List Address} {task : OnchainTask Id} (h : Started allArbs taken task)
    (calculation : Calculation Id) : Started allArbs taken (task.submit calculation) := by
  rw [OnchainTask.submit]
  cases hremaining : task.remaining with
  | nil => exact h
  | cons arbHelper rest =>
    refine ⟨h.found, ?_⟩
    have hget : task.arbHelpers[task.submitted.length]? = some arbHelper := by
      rw [← List.head?_drop]
      exact congrArg List.head? hremaining
    show List.Forall₂ _ (task.arbHelpers.take (task.submitted ++ [_]).length) (task.submitted ++ [_])
    rw [List.length_append, List.length_singleton, List.take_add_one, hget]
    exact List.rel_append h.own (.cons (fun result => calculation.id_eq arbHelper result) .nil)

/-- The task for the arbs of an address, if there are any. -/
def created (allArbs : AllArbs Id) (poolAddress : Address) : List (List (UniswapLpCycle Id)) :=
  match findAffectedArbs allArbs poolAddress with
  | [] => []
  | arbs => [arbs]

theorem mem_created {poolAddress : Address} {arbs : List (UniswapLpCycle Id)} :
    arbs ∈ created allArbs poolAddress ↔ arbs = findAffectedArbs allArbs poolAddress ∧ arbs ≠ [] := by
  rw [created]
  cases findAffectedArbs allArbs poolAddress with
  | nil => simp
  | cons first rest =>
    rw [List.mem_singleton]
    exact ⟨fun h => ⟨h, by simp [h]⟩, And.left⟩

/-- A round takes the first address, if there is one, and does not raise. -/
theorem iterate_eq (hcounted : w.pipeline.finder.unfinished = w.pipeline.finder.poolsToProcess.length) :
    w.iterate allArbs = .ok (match w.pipeline.finder.poolsToProcess with
      | [] => w
      | poolAddress :: rest => {w with
        pipeline := {w.pipeline with finder := {
          poolsToProcess := rest
          unfinished := w.pipeline.finder.unfinished - 1
          taken := w.pipeline.finder.taken ++ [poolAddress]
          tasks := w.pipeline.finder.tasks ++ created allArbs poolAddress}}
        running := w.running ++ (created allArbs poolAddress).map fun arbs => ⟨arbs, []⟩}) := by
  obtain ⟨⟨handlers, poolsToProcess, unfinished, taken, tasks⟩, running, announced⟩ := w
  cases poolsToProcess with
  | nil => simp [iterate, Finder.iteration, bind, Except.bind, pure, Except.pure]
  | cons poolAddress rest =>
    have hpositive : unfinished ≠ 0 := by
      have hsucc : unfinished = rest.length + 1 := hcounted
      omega
    simp only [iterate, Finder.iteration, created]
    cases findAffectedArbs allArbs poolAddress with
    | nil => simp [Finder.createTask, Finder.taskDone, hpositive, bind, Except.bind, pure, Except.pure]
    | cons first more =>
      simp [Finder.createTask, Finder.taskDone, hpositive, bind, Except.bind, pure, Except.pure]

theorem working_start [DecidableEq Id] (allArbs : AllArbs Id)
    (poolManagers : Dict Address TrackedPools) (helpers : Heap σ) (snapshot : τ) :
    Working allArbs (start poolManagers helpers snapshot : Trading σ τ Id) :=
  ⟨rfl, by simp [start], by simp [start]⟩

section Working
variable [DecidableEq Id]

theorem Working.runPut (h : Working allArbs w) (i : Nat) :
    Working allArbs {w with pipeline := w.pipeline.runPut i} := by
  rw [Pipeline.runPut]
  cases w.pipeline.handlers.putTasks[i]? with
  | none => exact h
  | some poolAddress =>
    refine ⟨?_, h.running, h.announced⟩
    show w.pipeline.finder.unfinished + 1 = (w.pipeline.finder.poolsToProcess ++ [poolAddress]).length
    rw [h.counted, List.length_append, List.length_singleton]

theorem Working.iterate (h : Working allArbs w) :
    ∃ next, w.iterate allArbs = .ok next ∧ Working allArbs next := by
  refine ⟨_, iterate_eq h.counted, ?_⟩
  cases hqueue : w.pipeline.finder.poolsToProcess with
  | nil => exact h
  | cons poolAddress rest =>
    have hcount := h.counted
    rw [hqueue, List.length_cons] at hcount
    have hsub : w.pipeline.finder.taken ⊆ w.pipeline.finder.taken ++ [poolAddress] :=
      List.subset_append_left ..
    refine ⟨?_, fun task htask => ?_, fun a ha => ?_⟩
    · show w.pipeline.finder.unfinished - 1 = rest.length
      omega
    · rcases List.mem_append.mp htask with htask | htask
      · exact (h.running task htask).mono hsub
      · obtain ⟨arbs, harbs, rfl⟩ := List.mem_map.mp htask
        exact ⟨⟨poolAddress, List.mem_append_right _ (List.mem_singleton_self _),
          (mem_created.mp harbs).1⟩, .nil⟩
    · obtain ⟨hstarted, hdone⟩ := h.announced a ha
      exact ⟨hstarted.mono hsub, hdone⟩

theorem Working.submit (h : Working allArbs w) (i : Nat) (calculation : Calculation Id) :
    Working allArbs (w.submit i calculation) := by
  rw [Trading.submit]
  cases hget : w.running[i]? with
  | none => exact h
  | some task =>
    refine ⟨h.counted, fun task' htask' => ?_, h.announced⟩
    rcases List.mem_or_eq_of_mem_set htask' with htask' | rfl
    · exact h.running task' htask'
    · exact (h.running task (List.mem_of_getElem? hget)).submit calculation

/-- A task that is done leaves, or nothing happens. -/
theorem select_cases (allArbs : AllArbs Id) (w : Trading σ τ Id) (i : Nat)
    (completion : Completion Id) : w.select allArbs i completion = w ∨
      ∃ task, w.running[i]? = some task ∧ task.remaining = [] ∧
        w.select allArbs i completion = {w with
          running := w.running.eraseIdx i
          announced := w.announced ++ [⟨task, task.select allArbs completion⟩]} := by
  rw [Trading.select]
  split
  · exact .inl rfl
  · rename_i task hget
    split
    · rename_i hdone
      exact .inr ⟨task, hget, hdone, rfl⟩
    · exact .inl rfl

theorem Working.select (h : Working allArbs w) (i : Nat) (completion : Completion Id) :
    Working allArbs (w.select allArbs i completion) := by
  rcases select_cases allArbs w i completion with hsame | ⟨task, hget, hdone, hleft⟩
  · rw [hsame]
    exact h
  · rw [hleft]
    refine ⟨h.counted, fun task' htask' => h.running task' (List.mem_of_mem_eraseIdx htask'),
      fun a ha => ?_⟩
    rcases List.mem_append.mp ha with ha | ha
    · exact h.announced a ha
    · rw [List.mem_singleton.mp ha]
      exact ⟨h.running task (List.mem_of_getElem? hget), hdone, completion, rfl⟩

/-- No step raises. -/
theorem Working.step (h : Working allArbs w) (abi : EthAbi Topic) (s : Step Topic σ τ Id) :
    ∃ next, w.step abi allArbs s = .ok next ∧ Working allArbs next := by
  cases s with
  | handle call => exact ⟨_, rfl, h.counted, h.running, h.announced⟩
  | runPut i => exact ⟨_, rfl, h.runPut i⟩
  | iterate => exact h.iterate
  | submit i calculation => exact ⟨_, rfl, h.submit i calculation⟩
  | select i completion => exact ⟨_, rfl, h.select i completion⟩

theorem Working.after (abi : EthAbi Topic) (steps : List (Step Topic σ τ Id)) :
    ∀ {w : Trading σ τ Id}, Working allArbs w →
      ∃ last, w.after abi allArbs steps = .ok last ∧ Working allArbs last := by
  induction steps with
  | nil => exact fun h => ⟨_, rfl, h⟩
  | cons s rest ih =>
    intro w h
    obtain ⟨next, hnext, hworking⟩ := h.step abi s
    obtain ⟨last, hlast, hworking⟩ := ih hworking
    refine ⟨last, ?_, hworking⟩
    rw [Trading.after, List.foldlM_cons]
    exact bind_eq_ok.mpr ⟨next, hnext, hlast⟩

end Working

/-! ### Updates are calculated -/

/-- The calculation of an arb is still to come for an address: the address is to be put or
in the queue, or a running task has the arb before it. -/
def Pending (w : Trading σ τ Id) (poolAddress : Address) (arb : UniswapLpCycle Id) : Prop :=
  poolAddress ∈ w.pipeline.handlers.putTasks ∨ poolAddress ∈ w.pipeline.finder.poolsToProcess ∨
    ∃ task ∈ w.running, arb ∈ task.remaining

/-- A task submits the calculation of this arb. -/
def Submits (w : Trading σ τ Id) (arb : UniswapLpCycle Id) (s : Step Topic σ τ Id) : Prop :=
  ∃ i calculation task rest, s = .submit i calculation ∧ w.running[i]? = some task ∧
    task.remaining = arb :: rest

theorem remaining_submit {task : OnchainTask Id} {arb : UniswapLpCycle Id}
    {rest : List (UniswapLpCycle Id)} (h : task.remaining = arb :: rest) (calculation : Calculation Id) :
    (task.submit calculation).remaining = rest := by
  rw [OnchainTask.submit, h]
  show task.arbHelpers.drop (task.submitted ++ [_]).length = rest
  rw [List.length_append, List.length_singleton, ← List.drop_drop]
  exact congrArg (List.drop 1) h

section Pending
variable {poolAddress : Address} {arb : UniswapLpCycle Id}

theorem Pending.runPut (h : w.Pending poolAddress arb) (i : Nat) :
    Pending {w with pipeline := w.pipeline.runPut i} poolAddress arb := by
  rw [Pipeline.runPut]
  cases hget : w.pipeline.handlers.putTasks[i]? with
  | none => exact h
  | some put =>
    obtain ⟨hi, hget⟩ := List.getElem?_eq_some_iff.mp hget
    have hput : (put :: w.pipeline.handlers.putTasks.eraseIdx i).Perm w.pipeline.handlers.putTasks := by
      rw [← hget]
      exact List.getElem_cons_eraseIdx_perm hi
    rcases h with htask | hqueue | hrunning
    · rcases List.mem_cons.mp (hput.mem_iff.mpr htask) with rfl | htask
      · exact .inr (.inl (List.mem_append_right _ (List.mem_singleton_self _)))
      · exact .inl htask
    · exact .inr (.inl (List.mem_append_left _ hqueue))
    · exact .inr (.inr hrunning)

theorem Pending.iterate (h : w.Pending poolAddress arb)
    (harb : arb ∈ findAffectedArbs allArbs poolAddress)
    (hcounted : w.pipeline.finder.unfinished = w.pipeline.finder.poolsToProcess.length)
    {next : Trading σ τ Id} (hnext : w.iterate allArbs = .ok next) : next.Pending poolAddress arb := by
  rw [iterate_eq hcounted] at hnext
  cases hnext
  cases hqueue : w.pipeline.finder.poolsToProcess with
  | nil => exact h
  | cons first rest =>
    rcases h with htask | hpool | ⟨task, htask, hremaining⟩
    · exact .inl htask
    · rw [hqueue] at hpool
      rcases List.mem_cons.mp hpool with rfl | hrest
      · have hcreated := mem_created.mpr ⟨rfl, List.ne_nil_of_mem harb⟩
        exact .inr (.inr ⟨⟨_, []⟩, List.mem_append_right _ (List.mem_map_of_mem hcreated), harb⟩)
      · exact .inr (.inl hrest)
    · exact .inr (.inr ⟨task, List.mem_append_left _ htask, hremaining⟩)

theorem Pending.submit (h : w.Pending poolAddress arb) (i : Nat) (calculation : Calculation Id) :
    (w.submit i calculation).Pending poolAddress arb ∨
      w.Submits arb (.submit i calculation : Step Topic σ τ Id) := by
  rw [Trading.submit]
  cases hget : w.running[i]? with
  | none => exact .inl h
  | some task =>
    obtain ⟨hi, hget'⟩ := List.getElem?_eq_some_iff.mp hget
    rcases h with htask | hqueue | ⟨task', htask', hremaining⟩
    · exact .inl (.inl htask)
    · exact .inl (.inr (.inl hqueue))
    obtain ⟨j, hj, rfl⟩ := List.getElem_of_mem htask'
    by_cases hij : i = j
    · subst hij
      rw [hget'] at hremaining
      cases hcons : task.remaining with
      | nil =>
        rw [hcons] at hremaining
        cases hremaining
      | cons first rest =>
        rw [hcons] at hremaining
        rcases List.mem_cons.mp hremaining with rfl | hrest
        · exact .inr ⟨i, calculation, task, rest, rfl, hget, hcons⟩
        · refine .inl (.inr (.inr ⟨task.submit calculation, List.mem_set hi _, ?_⟩))
          rw [remaining_submit hcons]
          exact hrest
    · refine .inl (.inr (.inr ⟨w.running[j], ?_, hremaining⟩))
      rw [← List.getElem_set_ne hij (by simpa using hj)]
      exact List.getElem_mem _

theorem Pending.select [DecidableEq Id] (h : w.Pending poolAddress arb) (i : Nat)
    (completion : Completion Id) : (w.select allArbs i completion).Pending poolAddress arb := by
  rcases select_cases allArbs w i completion with hsame | ⟨task, hget, hdone, hleft⟩
  · rw [hsame]
    exact h
  · rw [hleft]
    obtain ⟨hi, hget⟩ := List.getElem?_eq_some_iff.mp hget
    rcases h with htask | hqueue | ⟨task', htask', hremaining⟩
    · exact .inl htask
    · exact .inr (.inl hqueue)
    · -- The task that leaves has nothing before it.
      have hother : task' ∈ w.running.eraseIdx i := by
        have hperm := List.getElem_cons_eraseIdx_perm hi
        rw [hget] at hperm
        rcases List.mem_cons.mp (hperm.mem_iff.mpr htask') with rfl | hother
        · rw [hdone] at hremaining
          cases hremaining
        · exact hother
      exact .inr (.inr ⟨task', hother, hremaining⟩)

/-- What is to come stays to come until it is submitted. -/
theorem Pending.step [DecidableEq Id] (h : w.Pending poolAddress arb)
    (harb : arb ∈ findAffectedArbs allArbs poolAddress) (hworking : Working allArbs w)
    (abi : EthAbi Topic) {s : Step Topic σ τ Id} {next : Trading σ τ Id}
    (hnext : w.step abi allArbs s = .ok next) : next.Pending poolAddress arb ∨ w.Submits arb s := by
  cases s with
  | handle call =>
    cases hnext
    refine .inl ?_
    rcases h with htask | hqueue | hrunning
    · refine .inl ?_
      show poolAddress ∈ (call.next abi w.pipeline.handlers).putTasks
      rw [call.putTasks_next]
      exact List.mem_append_left _ htask
    · exact .inr (.inl hqueue)
    · exact .inr (.inr hrunning)
  | runPut i =>
    cases hnext
    exact .inl (h.runPut i)
  | iterate => exact .inl (h.iterate harb hworking.counted hnext)
  | submit i calculation =>
    cases hnext
    exact h.submit i calculation
  | select i completion =>
    cases hnext
    exact .inl (h.select i completion)

end Pending

/-- Nothing is to be put, to be taken or to be submitted. -/
structure Idle (w : Trading σ τ Id) : Prop where
  putTasks : w.pipeline.handlers.putTasks = []
  poolsToProcess : w.pipeline.finder.poolsToProcess = []
  running : ∀ task ∈ w.running, task.remaining = []

theorem Idle.not_pending (h : w.Idle) (poolAddress : Address) (arb : UniswapLpCycle Id) :
    ¬w.Pending poolAddress arb := by
  intro hpending
  rcases hpending with htask | hqueue | ⟨task, htask, hremaining⟩
  · rw [h.putTasks] at htask
    cases htask
  · rw [h.poolsToProcess] at hqueue
    cases hqueue
  · rw [h.running task htask] at hremaining
    cases hremaining

end Trading

section Results
variable [DecidableEq Id]

/-- **After every completed update each arb found for the pool is calculated again**: in no
run is anything raised, and one that comes to an idle end has a later turn in which a task
submits the calculation. -/
theorem updates_calculated (abi : EthAbi Topic) (allArbs : AllArbs Id)
    (poolManagers : Dict Address TrackedPools) (helpers : Heap σ) (snapshot : τ)
    (before after : List (Trading.Step Topic σ τ Id)) (call : Handling Topic σ τ) :
    ∃ reached last : Trading σ τ Id,
      (Trading.start poolManagers helpers snapshot).after abi allArbs before = .ok reached ∧
      reached.after abi allArbs (.handle call :: after) = .ok last ∧
      (call.completed abi reached.pipeline.handlers = [call.log.address] → last.Idle →
        ∀ arb ∈ findAffectedArbs allArbs call.log.address,
          ∃ between s rest middle, after = between ++ s :: rest ∧
            reached.after abi allArbs (.handle call :: between) = .ok middle ∧
            middle.Submits arb s) := by
  obtain ⟨reached, hreached, hworking⟩ :=
    (Trading.working_start allArbs poolManagers helpers snapshot).after abi before
  obtain ⟨handled, hhandled, hhandling⟩ := hworking.step abi (.handle call)
  obtain ⟨last, hlast, _⟩ := hhandling.after abi after
  have hcons : ∀ {steps end_}, handled.after abi allArbs steps = .ok end_ →
      reached.after abi allArbs (.handle call :: steps) = .ok end_ := by
    intro steps end_ hsteps
    rw [Trading.after, List.foldlM_cons]
    exact bind_eq_ok.mpr ⟨handled, hhandled, hsteps⟩
  refine ⟨reached, last, hreached, hcons hlast, fun hcompleted hidle arb harb => ?_⟩
  have hput : call.log.address ∈ handled.pipeline.handlers.putTasks := by
    cases hhandled
    show call.log.address ∈ (call.next abi reached.pipeline.handlers).putTasks
    rw [call.putTasks_next, hcompleted]
    exact List.mem_append_right _ (List.mem_singleton_self _)
  have hstep : ∀ (w : Trading σ τ Id) (s : Trading.Step Topic σ τ Id) (next : Trading σ τ Id),
      w.Working allArbs ∧ w.Pending call.log.address arb → w.step abi allArbs s = .ok next →
      (next.Working allArbs ∧ next.Pending call.log.address arb) ∨ w.Submits arb s := by
    intro w s next hw hnext
    obtain ⟨hw, hpending⟩ := hw
    obtain ⟨_, hnext', hnextWorking⟩ := hw.step abi s
    cases hnext.symm.trans hnext'
    exact (hpending.step harb hw abi hnext).imp_left fun hp => ⟨hnextWorking, hp⟩
  rcases foldlM_keeps_or hstep ⟨hhandling, .inl hput⟩ hlast with
    ⟨_, hpending⟩ | ⟨between, s, rest, middle, hsplit, hbetween, hsubmits⟩
  · exact absurd hpending (hidle.not_pending _ _)
  · exact ⟨between, s, rest, middle, hsplit, hcons hbetween, hsubmits⟩

/-! ### What a task announces -/

/-- Submitting this arb has come to this result. -/
def OnchainTask.HasResult (task : OnchainTask Id) (arb : UniswapLpCycle Id)
    (result : ArbitrageCalculationResult Id) : Prop :=
  (arb, Except.ok (Except.ok result)) ∈ task.arbHelpers.zip task.submitted

omit [DecidableEq Id] in
theorem mem_results {submitted : List (Except PyError (Future Id))}
    {result : ArbitrageCalculationResult Id} :
    result ∈ calculationResults (submitted.filterMap Except.toOption) ↔
      Except.ok (Except.ok result) ∈ submitted := by
  rw [calculationResults, List.mem_filterMap]
  refine ⟨fun h => ?_, fun h => ⟨.ok result, ?_, rfl⟩⟩
  · obtain ⟨future, hfuture, hresult⟩ := h
    obtain ⟨outcome, houtcome, heq⟩ := List.mem_filterMap.mp hfuture
    rcases outcome with e | _
    · cases heq
    cases heq
    rcases future with e | r
    · cases hresult
    · cases hresult
      exact houtcome
  · exact List.mem_filterMap.mpr ⟨.ok (.ok result), h, rfl⟩

omit [DecidableEq Id] in
/-- Results in the order of submission have the ids of their arbs. -/
theorem results_ids {arbs : List (UniswapLpCycle Id)} {submitted : List (Except PyError (Future Id))}
    (h : List.Forall₂ (fun arb outcome => ∀ result, outcome = .ok (.ok result) → result.id = arb.id)
      arbs submitted) :
    ((calculationResults (submitted.filterMap Except.toOption)).map
      ArbitrageCalculationResult.id).Sublist (arbs.map UniswapLpCycle.id) := by
  induction h with
  | nil => exact .refl _
  | @cons arb outcome arbs submitted hfirst _ ih =>
    rcases outcome with e | e | result
    · exact ih.cons _
    · exact ih.cons _
    · have hid := hfirst result rfl
      show (result.id :: _).Sublist (arb.id :: _)
      rw [hid]
      exact ih.cons_cons _

namespace Trading.Started
variable {allArbs : AllArbs Id} {taken : List Address} {task : OnchainTask Id}

omit [DecidableEq Id]

/-- A task that is done has submitted every arb once. -/
theorem length_eq (h : Started allArbs taken task) (hdone : task.remaining = []) :
    task.submitted.length = task.arbHelpers.length := by
  have hlength := h.own.length_eq
  rw [List.length_take] at hlength
  have hall := List.drop_eq_nil_iff.mp hdone
  omega

theorem own_all (h : Started allArbs taken task) (hdone : task.remaining = []) :
    List.Forall₂ (fun arb outcome => ∀ result, outcome = .ok (.ok result) → result.id = arb.id)
      task.arbHelpers task.submitted := by
  have hown := h.own
  rw [h.length_eq hdone, List.take_length] at hown
  exact hown

theorem exists_hasResult (h : Started allArbs taken task) (hdone : task.remaining = [])
    {result : ArbitrageCalculationResult Id} :
    result ∈ calculationResults (task.submitted.filterMap Except.toOption) ↔
      ∃ arb, task.HasResult arb result := by
  rw [mem_results]
  refine ⟨fun hmem => ?_, fun ⟨arb, harb⟩ => (List.of_mem_zip harb).2⟩
  have hsnd : (task.arbHelpers.zip task.submitted).map Prod.snd = task.submitted :=
    List.map_snd_zip (h.length_eq hdone).le
  rw [← hsnd] at hmem
  obtain ⟨⟨arb, outcome⟩, hzip, rfl⟩ := List.mem_map.mp hmem
  exact ⟨arb, hzip⟩

theorem id_eq (h : Started allArbs taken task) (hdone : task.remaining = []) {arb : UniswapLpCycle Id}
    {result : ArbitrageCalculationResult Id} (hresult : task.HasResult arb result) :
    result.id = arb.id :=
  (List.forall₂_iff_zip.mp (h.own_all hdone)).2 hresult result rfl

theorem mem_cycles (h : Started allArbs taken task) {arb : UniswapLpCycle Id}
    {result : ArbitrageCalculationResult Id} (hresult : task.HasResult arb result) :
    arb ∈ allArbs.cycles := by
  obtain ⟨_, _, hfound⟩ := h.found
  have harb := (List.of_mem_zip hresult).1
  rw [hfound] at harb
  exact (mem_findAffectedArbs harb).1

end Trading.Started

namespace Trading.Started
variable {allArbs : AllArbs Id} {taken : List Address} {task : OnchainTask Id}

theorem nodup_ids (h : Started allArbs taken task) (hdone : task.remaining = [])
    (hown : AllArbs.OwnIds allArbs) :
    ((calculationResults (task.submitted.filterMap Except.toOption)).map
      ArbitrageCalculationResult.id).Nodup := by
  obtain ⟨_, _, hfound⟩ := h.found
  refine List.Nodup.sublist (results_ids (h.own_all hdone)) ?_
  rw [hfound]
  exact findAffectedArbs_ids hown

/-- A result is paired with the arb that it is of. -/
theorem hasResult_of_paired (h : Started allArbs taken task) (hdone : task.remaining = [])
    (hown : AllArbs.OwnIds allArbs) {results : List (ArbitrageCalculationResult Id)}
    (hof : ∀ result ∈ results, ∃ arb, task.HasResult arb result)
    {p : UniswapLpCycle Id × ArbitrageCalculationResult Id} (hp : p ∈ paired allArbs results) :
    task.HasResult p.1 p.2 := by
  obtain ⟨hresult, hcycle, hid⟩ := mem_paired hown hp
  obtain ⟨arb, harb⟩ := hof p.2 hresult
  have hsame : p.1 = arb := hown.eq_of_id_eq hcycle (h.mem_cycles harb) (hid.trans (h.id_eq hdone harb))
  rw [hsame]
  exact harb

end Trading.Started

/-- **A task announces the best of its own results alone**, or nothing if all are losses,
whatever came between its calculations. -/
theorem best_result_announced (abi : EthAbi Topic) (allArbs : AllArbs Id)
    (hown : AllArbs.OwnIds allArbs) (poolManagers : Dict Address TrackedPools) (helpers : Heap σ)
    (snapshot : τ) (steps : List (Trading.Step Topic σ τ Id)) :
    ∃ last : Trading σ τ Id,
      (Trading.start poolManagers helpers snapshot).after abi allArbs steps = .ok last ∧
      ∀ a ∈ last.announced,
        (∃ poolAddress ∈ last.pipeline.finder.taken,
          a.task.arbHelpers = findAffectedArbs allArbs poolAddress) ∧
        a.task.submitted.length = a.task.arbHelpers.length ∧
        ((∀ arb result, a.task.HasResult arb result → result.profitAmount < 0) → a.outcome = .ok []) ∧
        ((∃ arb result, a.task.HasResult arb result ∧ 0 ≤ result.profitAmount) →
          ∃ arb result, a.outcome = .ok [(arb, result)] ∧ a.task.HasResult arb result ∧
            0 ≤ result.profitAmount ∧
            ∀ arb' other, a.task.HasResult arb' other → other.profitAmount ≤ result.profitAmount) := by
  obtain ⟨last, hlast, hworking⟩ :=
    (Trading.working_start allArbs poolManagers helpers snapshot).after abi steps
  refine ⟨last, hlast, fun a ha => ?_⟩
  obtain ⟨hstarted, hdone, completion, houtcome⟩ := hworking.announced a ha
  obtain ⟨poolAddress, htaken, hfound⟩ := hstarted.found
  let plain := calculationResults (a.task.submitted.filterMap Except.toOption)
  let results := calculationResults
    (completion.asCompleted (a.task.submitted.filterMap Except.toOption))
  have hperm : results.Perm plain := (completion.perm _).filterMap _
  have hmem : ∀ result, result ∈ results ↔ ∃ arb, a.task.HasResult arb result :=
    fun result => hperm.mem_iff.trans (hstarted.exists_hasResult hdone)
  have hnodup : (results.map ArbitrageCalculationResult.id).Nodup :=
    (hperm.map _).nodup_iff.mpr (hstarted.nodup_ids hdone hown)
  have hknown : ∀ result ∈ results, result.id ∈ allArbs.keys := by
    intro result hr
    obtain ⟨arb, hresult⟩ := (hmem result).mp hr
    rw [hstarted.id_eq hdone hresult, ← hown.map_id_cycles]
    exact List.mem_map_of_mem (hstarted.mem_cycles hresult)
  have hselect : a.outcome = .ok (greedy (fun p p' => p.1.shares p'.1)
      (paired allArbs (allProfitableCalcResults results))) :=
    houtcome.trans (selectArbs_eq hown hknown hnodup)
  have hpaired : ∀ p ∈ paired allArbs (allProfitableCalcResults results),
      a.task.HasResult p.1 p.2 := fun p hp =>
    hstarted.hasResult_of_paired hdone hown
      (fun result hr => (hmem result).mp (mem_allProfitableCalcResults.mp hr).1) hp
  have hthrough : ∀ p ∈ paired allArbs (allProfitableCalcResults results),
      p.1.tradesThrough poolAddress = true := by
    intro p hp
    have harb := (List.of_mem_zip (hpaired p hp)).1
    rw [hfound] at harb
    exact (mem_findAffectedArbs harb).2
  refine ⟨⟨poolAddress, htaken, hfound⟩, hstarted.length_eq hdone, fun hloss => ?_,
    fun ⟨gain, result, hresult, hgain⟩ => ?_⟩
  · have hnone : allProfitableCalcResults results = [] := by
      rw [List.eq_nil_iff_forall_not_mem]
      intro result hr
      obtain ⟨hr, hgain⟩ := mem_allProfitableCalcResults.mp hr
      obtain ⟨arb, hresult⟩ := (hmem result).mp hr
      exact absurd hgain (Int.not_le.mpr (hloss arb result hresult))
    rw [hselect, hnone, paired, List.filterMap_nil, greedy]
  · have hmember := mem_allProfitableCalcResults.mpr ⟨(hmem result).mpr ⟨gain, hresult⟩, hgain⟩
    obtain ⟨top, profitable, hsorted⟩ := List.exists_cons_of_ne_nil (List.ne_nil_of_mem hmember)
    obtain ⟨arb, hp, hgreedy⟩ := greedy_one_pool hsorted hknown hthrough
    obtain ⟨htop, hbest⟩ := profit_le_top hsorted
    exact ⟨arb, top, by rw [hselect, hgreedy], hpaired _ hp, htop, fun arb' other hother =>
      hbest other ((hmem other).mpr ⟨arb', hother⟩)⟩

end Results

/-! ### One update of pool 1 -/

/-- Helpers count their updates. -/
def countingCalls : HelperCalls Nat Unit :=
  oneFactory (.fill 20) (fun _ _ => 0) (fun _ helper => (.ok (), helper + 1)) fun _ _ snapshot =>
    (.ok (), snapshot)

def syncOfPool1 : Handling Unit Nat Unit := ⟨.processSyncEvent, logOfPool1, countingCalls⟩

/-- The results gain as much as their ids. -/
def gainsItsId : Calculation Nat where
  calculateWithPool arb := .ok (.ok ⟨arb.id, arb.id⟩)
  id_eq arb result h := by
    cases h
    rfl

/-- The address is put and taken, both arbs of pool 1 are submitted, and the task selects. -/
def afterSync : List (Trading.Step Unit Nat Unit Nat) :=
  [.runPut 0, .iterate, .submit 0 gainsItsId, .submit 0 gainsItsId,
    .select 0 ⟨List.reverse, List.reverse_perm⟩]

/-- The helper of pool 1 is tracked. -/
def tracksPool1 : Dict Address TrackedPools :=
  .ofList [(.fill 20, .ofList [(.fill 1, ⟨.fill 1, 0⟩)])]

theorem updates_calculated_sync : ∀ arb ∈ findAffectedArbs threeArbs (.fill 1),
    ∃ between s rest, afterSync = between ++ s :: rest ∧
      ∃ middle : Trading Nat Unit Nat, middle.Submits arb s := by
  obtain ⟨reached, last, hreached, hlast, hcalculated⟩ := updates_calculated someLiquidity threeArbs
    tracksPool1 ⟨fun _ => 0, 1⟩ () [] afterSync syncOfPool1
  cases hreached
  cases hlast
  intro arb harb
  obtain ⟨between, s, rest, middle, hsplit, _, hsubmits⟩ :=
    hcalculated rfl ⟨rfl, rfl, fun task htask => nomatch htask⟩ arb harb
  exact ⟨between, s, rest, hsplit, middle, hsubmits⟩

/-- Of the two arbs the second gains more. -/
theorem best_result_announced_sync : ∃ last : Trading Nat Unit Nat,
    (Trading.start tracksPool1 ⟨fun _ => 0, 1⟩ ()).after someLiquidity threeArbs
        (.handle syncOfPool1 :: afterSync) = .ok last ∧
      ∃ a ∈ last.announced, ∃ arb result, a.outcome = .ok [(arb, result)] ∧
        8 ≤ result.profitAmount := by
  obtain ⟨last, hlast, hannounced⟩ := best_result_announced someLiquidity threeArbs threeArbs_ownIds
    tracksPool1 ⟨fun _ => 0, 1⟩ () (.handle syncOfPool1 :: afterSync)
  refine ⟨last, hlast, ?_⟩
  cases hlast
  refine ⟨_, List.mem_singleton_self _, ?_⟩
  obtain ⟨_, _, _, hbest⟩ := hannounced _ (List.mem_singleton_self _)
  obtain ⟨arb, result, houtcome, _, _, hmost⟩ := hbest ⟨_, ⟨8, 8⟩, List.mem_cons_of_mem _
    (List.mem_cons_self ..), by decide⟩
  exact ⟨arb, result, houtcome, hmost _ ⟨8, 8⟩ (List.mem_cons_of_mem _ (List.mem_cons_self ..))⟩

end CreamBots.App
