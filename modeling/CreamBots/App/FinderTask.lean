import CreamBots.App.AffectedArbs

/-! The task of `find_onchain_arbs`, from one `await` to the next.

The task waits for an address, then for the arbs of that address, and either wait may be
cancelled. `task_done` stands in a `finally` that is run however the `try` is left, also
if no address has been obtained yet. So a task that is cancelled while it waits for an
address calls `task_done` once too often, and where no item is unfinished it ends with a
`ValueError`; in all other runs every address is done once (`finder_accounts_iff`,
`cancelled_while_waiting`). Without a cancellation two steps of the task are a round of
the finder (`FinderTask.round`). -/
namespace CreamBots.App
open Data Builders

variable {Id : Type}

/-- How the task ends, if it does. -/
inductive Ending where
  | cancelledError
  | raised (e : PyError)
deriving DecidableEq

/-- What the task waits for: an address, the arbs of an address, or nothing more. -/
inductive Phase where
  | getting
  | finding (poolAddress : Address)
  | ended (ending : Ending)
deriving DecidableEq

/-- The finder as a task, with the calls of `task_done` counted. -/
structure FinderTask (Id : Type) where
  finder : Finder Id
  taskDones : Nat
  phase : Phase

/-- A handler's put; an address is given to the task; the lookup of its arbs returns or
raises; the task is cancelled where it waits. -/
inductive TaskStep (Id : Type) where
  | put (poolAddress : Address)
  | get
  | found (affectedArbs : Except PyError (List (UniswapLpCycle Id)))
  | cancel

namespace FinderTask

def start : FinderTask Id := ⟨.start, 0, .getting⟩

/-- `finally`: what `task_done` raises takes the place of what was to come. -/
def finallyDone (task : FinderTask Id) (next : Phase) : FinderTask Id :=
  match task.finder.taskDone with
  | .ok finder => ⟨finder, task.taskDones + 1, next⟩
  | .error e => ⟨task.finder, task.taskDones + 1, .ended (.raised e)⟩

/-- None if the task is not at this point. -/
def step (task : FinderTask Id) : TaskStep Id → Option (FinderTask Id)
  | .put poolAddress => some {task with finder := task.finder.put poolAddress}
  | .get =>
    match task.phase, task.finder.poolsToProcess with
    | .getting, poolAddress :: rest => some {task with
        finder := {task.finder with poolsToProcess := rest, taken := task.finder.taken ++ [poolAddress]}
        phase := .finding poolAddress}
    | _, _ => none
  | .found affectedArbs =>
    match task.phase with
    | .finding _ => some ({task with finder := task.finder.createTask affectedArbs}.finallyDone .getting)
    | _ => none
  | .cancel =>
    match task.phase with
    | .ended _ => none
    | _ => some (task.finallyDone (.ended .cancelledError))

def after (task : FinderTask Id) (steps : List (TaskStep Id)) : Option (FinderTask Id) :=
  steps.foldlM step task

/-- `task_done` is not called more often than addresses are obtained, as often once a
round is complete, and has not raised. -/
structure Accounts (task : FinderTask Id) : Prop where
  atMost : task.taskDones ≤ task.finder.taken.length
  complete : task.phase = .getting → task.taskDones = task.finder.taken.length
  ending : ∀ ending, task.phase = .ended ending → ending = .cancelledError

/-- What the steps keep: the address that is being looked up is the one unfinished item
that is not in the queue and the one that is not done. -/
def Counted (task : FinderTask Id) : Prop :=
  match task.phase with
  | .getting => task.finder.unfinished = task.finder.poolsToProcess.length ∧
      task.taskDones = task.finder.taken.length
  | .finding _ => task.finder.unfinished = task.finder.poolsToProcess.length + 1 ∧
      task.taskDones + 1 = task.finder.taken.length
  | .ended ending => task.taskDones = task.finder.taken.length ∧ ending = .cancelledError

variable {task next : FinderTask Id}

theorem counted_start : Counted (start : FinderTask Id) := ⟨rfl, rfl⟩

theorem Counted.accounts (h : Counted task) : task.Accounts := by
  rw [Counted] at h
  cases hphase : task.phase with
  | getting =>
    rw [hphase] at h
    exact ⟨h.2.le, fun _ => h.2, by simp [hphase]⟩
  | finding poolAddress =>
    rw [hphase] at h
    exact ⟨Nat.le_of_succ_le h.2.le, by simp [hphase], by simp [hphase]⟩
  | ended ending =>
    rw [hphase] at h
    refine ⟨h.1.le, by simp [hphase], ?_⟩
    intro ending' hended
    cases hphase.symm.trans hended
    exact h.2

theorem taskDones_finallyDone (task : FinderTask Id) (next : Phase) :
    (task.finallyDone next).taskDones = task.taskDones + 1 ∧
      (task.finallyDone next).finder.taken = task.finder.taken := by
  rw [finallyDone, Finder.taskDone]
  split_ifs
  · exact ⟨rfl, rfl⟩
  · exact ⟨rfl, rfl⟩

/-- With an item unfinished `task_done` does not raise. -/
theorem finallyDone_eq (h : task.finder.unfinished ≠ 0) (next : Phase) :
    task.finallyDone next = ⟨{task.finder with unfinished := task.finder.unfinished - 1},
      task.taskDones + 1, next⟩ := by
  rw [finallyDone, Finder.taskDone, if_neg h]

/-- The `finally` of a round that has obtained an address. -/
theorem Counted.finallyDone {poolAddress : Address} (h : Counted task)
    (hphase : task.phase = .finding poolAddress) :
    Counted (task.finallyDone .getting) ∧ Counted (task.finallyDone (.ended .cancelledError)) := by
  rw [Counted, hphase] at h
  obtain ⟨hunfinished, hdone⟩ := h
  have hpositive : task.finder.unfinished ≠ 0 := by omega
  rw [finallyDone_eq hpositive, finallyDone_eq hpositive]
  refine ⟨⟨?_, hdone⟩, hdone, rfl⟩
  show task.finder.unfinished - 1 = task.finder.poolsToProcess.length
  omega

theorem Counted.put (h : Counted task) (poolAddress : Address) :
    Counted {task with finder := task.finder.put poolAddress} := by
  obtain ⟨finder, taskDones, _ | _ | ending⟩ := task
  · refine ⟨?_, h.2⟩
    show finder.unfinished + 1 = (finder.poolsToProcess ++ [poolAddress]).length
    rw [h.1, List.length_append, List.length_singleton]
  · refine ⟨?_, h.2⟩
    show finder.unfinished + 1 = (finder.poolsToProcess ++ [poolAddress]).length + 1
    rw [h.1, List.length_append, List.length_singleton]
  · exact h

/-- A lookup that ends does not touch the queue. -/
theorem Counted.createTask (h : Counted task) (affectedArbs : Except PyError (List (UniswapLpCycle Id))) :
    Counted {task with finder := task.finder.createTask affectedArbs} := by
  obtain ⟨hqueue, hunfinished, htaken⟩ : (task.finder.createTask affectedArbs).poolsToProcess =
      task.finder.poolsToProcess ∧ (task.finder.createTask affectedArbs).unfinished =
      task.finder.unfinished ∧ (task.finder.createTask affectedArbs).taken = task.finder.taken :=
    Finder.createTask_queue affectedArbs
  simpa only [Counted, hqueue, hunfinished, htaken] using h

theorem Counted.step {s : TaskStep Id} (h : Counted task) (hstep : task.step s = some next)
    (hwaiting : s = .cancel → task.phase ≠ .getting) : Counted next := by
  cases s with
  | put poolAddress =>
    cases hstep
    exact h.put poolAddress
  | get =>
    rw [FinderTask.step] at hstep
    split at hstep
    · rename_i poolAddress rest hphase hqueue
      cases hstep
      rw [Counted, hphase, hqueue, List.length_cons] at h
      obtain ⟨hunfinished, hdone⟩ := h
      refine ⟨hunfinished, ?_⟩
      show task.taskDones + 1 = (task.finder.taken ++ [poolAddress]).length
      rw [hdone, List.length_append, List.length_singleton]
    · cases hstep
  | found affectedArbs =>
    rw [FinderTask.step] at hstep
    split at hstep
    · rename_i poolAddress hphase
      cases hstep
      exact ((h.createTask affectedArbs).finallyDone hphase).1
    · cases hstep
  | cancel =>
    rw [FinderTask.step] at hstep
    cases hphase : task.phase with
    | getting => exact absurd hphase (hwaiting rfl)
    | finding poolAddress =>
      rw [hphase] at hstep
      cases hstep
      exact (h.finallyDone hphase).2
    | ended ending =>
      rw [hphase] at hstep
      cases hstep

/-- A run that is never cancelled while it waits for an address. -/
theorem Counted.after (steps : List (TaskStep Id)) : ∀ {task next : FinderTask Id}, Counted task →
    task.after steps = some next →
    (∀ before rest, steps = before ++ .cancel :: rest →
      ∀ t, task.after before = some t → t.phase ≠ .getting) → Counted next := by
  induction steps with
  | nil =>
    intro task next h hafter _
    cases hafter
    exact h
  | cons s rest ih =>
    intro task next h hafter hwaiting
    obtain ⟨middle, hstep, hrest⟩ := Option.bind_eq_some_iff.mp hafter
    have hmiddle : Counted middle := by
      refine h.step hstep ?_
      intro hs
      subst hs
      exact hwaiting [] rest rfl task rfl
    refine ih hmiddle hrest ?_
    intro before rest' hsplit t ht
    subst hsplit
    refine hwaiting (s :: before) rest' rfl t ?_
    exact Option.bind_eq_some_iff.mpr ⟨middle, hstep, ht⟩

/-- Given an address and then its arbs, the task has gone through a round of the finder. -/
theorem round (lookup : Address → Except PyError (List (UniswapLpCycle Id)))
    (hphase : task.phase = .getting) {poolAddress : Address} {rest : List Address}
    (hqueue : task.finder.poolsToProcess = poolAddress :: rest) {finder : Finder Id}
    (hiteration : task.finder.iteration lookup = .ok finder) :
    task.after [.get, .found (lookup poolAddress)] = some ⟨finder, task.taskDones + 1, .getting⟩ := by
  have hget : task.step .get = some {task with
      finder := {task.finder with poolsToProcess := rest, taken := task.finder.taken ++ [poolAddress]}
      phase := .finding poolAddress} := by
    rw [step, hphase, hqueue]
  rw [Finder.iteration, hqueue] at hiteration
  have hfound : ∀ finder', (finder'.createTask (lookup poolAddress)).taskDone = .ok finder →
      step ⟨finder', task.taskDones, .finding poolAddress⟩ (.found (lookup poolAddress)) =
        some ⟨finder, task.taskDones + 1, .getting⟩ := by
    intro finder' hdone
    rw [step, finallyDone]
    simp only [hdone]
  rw [after, List.foldlM_cons, hget, Option.bind_eq_bind, Option.bind_some, List.foldlM_cons,
    hfound _ hiteration]
  rfl

end FinderTask

/-- **The finder accounts for its queue exactly in the runs in which it is not cancelled
while it waits for an address.** -/
theorem finder_accounts_iff (steps : List (TaskStep Id)) :
    (∀ before rest, steps = before ++ rest →
      ∀ task, FinderTask.start.after before = some task → task.Accounts) ↔
    ∀ before rest, steps = before ++ .cancel :: rest →
      ∀ task, FinderTask.start.after before = some task → task.phase ≠ .getting := by
  constructor
  · intro h before rest hsteps task htask hgetting
    have hbefore := h before (.cancel :: rest) hsteps task htask
    have hcancelled : FinderTask.start.after (before ++ [.cancel]) =
        some (task.finallyDone (.ended .cancelledError)) := by
      rw [FinderTask.after, List.foldlM_append]
      refine Option.bind_eq_some_iff.mpr ⟨task, htask, Option.bind_eq_some_iff.mpr ⟨_, ?_, rfl⟩⟩
      rw [FinderTask.step, hgetting]
    have hafter := h (before ++ [.cancel]) rest (by rw [hsteps, List.append_assoc]; rfl) _ hcancelled
    -- No address was obtained for this call of `task_done`.
    obtain ⟨hdones, htaken⟩ := task.taskDones_finallyDone (.ended .cancelledError)
    have hmore := hafter.atMost
    rw [hdones, htaken, hbefore.complete hgetting] at hmore
    exact Nat.not_succ_le_self _ hmore
  · intro h before rest hsplit task htask
    subst hsplit
    refine (FinderTask.counted_start.after before htask ?_).accounts
    intro before' rest' hsplit t ht
    subst hsplit
    exact h before' (rest' ++ rest) (by rw [List.append_assoc]; rfl) t ht

/-- Cancelled before any address has come, the task ends with a `ValueError`. -/
theorem cancelled_while_waiting : ¬∀ (steps : List (TaskStep Nat)) (task : FinderTask Nat),
    FinderTask.start.after steps = some task → task.Accounts := by
  intro h
  have hended := (h [.cancel] ⟨.start, 1, .ended (.raised .valueError)⟩ rfl).ending _ rfl
  cases hended

end CreamBots.App
