import CreamBots.App.EventLoop
import CreamBots.App.LiveBot
import CreamBots.App.PoolStates

/-! What the running bot knows of its pools.

Between two messages the other tasks of the bot take their turns, but the managers, the
helpers and the snapshot are left to the handlers, which take no notice of the tasks that
they leave behind (`Handling.next_withTasks`). So whatever the interleaving these three are
what the handlers alone make of the messages received (`LiveBot.handlers_after`), and the
helper that a cycle has of a pool holds what the pool's logs among them have made of it
(`live_pools_follow_their_logs`). The loop over the messages that carry these logs calls the
same handlers (`live_calls_of_messages`). -/
namespace CreamBots.App
open Data Builders

variable {Topic σ τ Id α : Type}

/-! ### The handlers and the tasks -/

/-- The same but for the tasks. -/
def HandlerState.withTasks (s : HandlerState σ τ) (putTasks : List Address) : HandlerState σ τ :=
  {s with putTasks}

def Outcome.withTasks (outcome : Outcome σ τ α) (putTasks : List Address) : Outcome σ τ α :=
  (outcome.1, outcome.2.withTasks putTasks)

section Tasks
variable {degenbot : HelperCalls σ τ} {s : HandlerState σ τ} {putTasks : List Address}

namespace HandlerState

theorem searchManagers_withTasks (eventAddress : Address) (stateBlock : Option Int)
    (managers : List (Address × TrackedPools)) : ∀ s : HandlerState σ τ,
    searchManagers degenbot eventAddress stateBlock managers (s.withTasks putTasks) =
      (searchManagers degenbot eventAddress stateBlock managers s).withTasks putTasks := by
  induction managers with
  | nil => exact fun _ => rfl
  | cons manager rest ih =>
    intro s
    have hget : (s.withTasks putTasks).getPool degenbot manager.1 manager.2 eventAddress stateBlock =
        Outcome.withTasks (s.getPool degenbot manager.1 manager.2 eventAddress stateBlock) putTasks := rfl
    rw [searchManagers, searchManagers, hget]
    rcases s.getPool degenbot manager.1 manager.2 eventAddress stateBlock with ⟨e | pool, s'⟩
    · cases e with
      | managerError => exact ih s'
      | _ => rfl
    · rfl

theorem addPool_withTasks (factory poolAddress : Address) (blockNumber : Nat) :
    (s.withTasks putTasks).addPool degenbot factory poolAddress blockNumber =
      (s.addPool degenbot factory poolAddress blockNumber).withTasks putTasks := by
  have hensure : (s.withTasks putTasks).ensureManager degenbot factory =
      Outcome.withTasks (s.ensureManager degenbot factory) putTasks := by
    have hget : (s.withTasks putTasks).poolManagers.get? factory = s.poolManagers.get? factory := rfl
    rw [ensureManager, ensureManager, hget]
    cases s.poolManagers.get? factory with
    | some tracked => rfl
    | none => cases degenbot.newManager factory <;> rfl
  rw [addPool, addPool, hensure]
  rcases s.ensureManager degenbot factory with ⟨e | tracked, s'⟩
  · rfl
  · rfl

theorem updateAndRecord_withTasks (eventAddress : Address) (pool : Pool) (update : PoolUpdate) :
    (s.withTasks putTasks).updateAndRecord degenbot eventAddress pool update =
      Outcome.withTasks (s.updateAndRecord degenbot eventAddress pool update) putTasks := by
  have hupdate : (s.withTasks putTasks).externalUpdate degenbot pool update =
      Outcome.withTasks (s.externalUpdate degenbot pool update) putTasks := rfl
  rw [updateAndRecord, updateAndRecord, hupdate]
  rcases s.externalUpdate degenbot pool update with ⟨e | _, s'⟩
  · rfl
  · rfl

theorem removeFrom_withTasks (poolAddress : Address) (managers : List (Address × TrackedPools)) :
    removeFrom degenbot poolAddress managers (s.withTasks putTasks) =
      Outcome.withTasks (removeFrom degenbot poolAddress managers s) putTasks := by
  induction managers with
  | nil => rfl
  | cons manager rest ih =>
    rw [removeFrom, removeFrom]
    rcases degenbot.delItem manager.2 poolAddress with e | tracked
    · cases e with
      | keyError => exact ih
      | _ => rfl
    · rfl

end HandlerState

/-! ### A call -/

namespace Handling
variable {abi : EthAbi Topic} {call : Handling Topic σ τ} (putTasks)

theorem prepareDecoded_withTasks (update : Except PyError PoolUpdate) (eventAddress : Address)
    (stateBlock : Option Int) : prepareDecoded degenbot update eventAddress stateBlock
        (s.withTasks putTasks) =
      Outcome.withTasks (prepareDecoded degenbot update eventAddress stateBlock s) putTasks := by
  cases update with
  | error e => rfl
  | ok update =>
    have hfind : (s.withTasks putTasks).findHelper degenbot eventAddress stateBlock =
        Outcome.withTasks (s.findHelper degenbot eventAddress stateBlock) putTasks :=
      HandlerState.searchManagers_withTasks ..
    rw [prepareDecoded, prepareDecoded, hfind]
    rcases s.findHelper degenbot eventAddress stateBlock with ⟨e | _ | pool, s'⟩
    · rfl
    · rfl
    · rfl

theorem prepareLiquidity_withTasks (decode : List UInt8 → Except PyError Nat) (sign : Int)
    (log : Log Topic) : prepareLiquidity abi degenbot decode sign log (s.withTasks putTasks) =
      Outcome.withTasks (prepareLiquidity abi degenbot decode sign log s) putTasks := by
  have hfind : ∀ stateBlock, (s.withTasks putTasks).findHelper degenbot log.address stateBlock =
      Outcome.withTasks (s.findHelper degenbot log.address stateBlock) putTasks :=
    fun stateBlock => HandlerState.searchManagers_withTasks ..
  rw [prepareLiquidity, prepareLiquidity, hfind]
  rcases s.findHelper degenbot log.address _ with ⟨e | _ | pool, s'⟩
  · rfl
  · rfl
  · rcases readLiquidityUpdate abi decode sign log with e | _ | update
    · rfl
    · rfl
    · rfl

theorem attempt_withTasks (pool : Pool) (update : PoolUpdate) (s : HandlerState σ τ) :
    call.attempt pool update (s.withTasks putTasks) =
      Outcome.withTasks (call.attempt pool update s) putTasks := by
  unfold attempt
  cases call.processFunc with
  | processMintEvent => exact HandlerState.updateAndRecord_withTasks ..
  | processBurnEvent => exact HandlerState.updateAndRecord_withTasks ..
  | _ => rfl

theorem onError_withTasks (pool : Pool) (e : PyError) (s : HandlerState σ τ) :
    call.onError pool e (s.withTasks putTasks) = Outcome.withTasks (call.onError pool e s) putTasks := by
  unfold onError
  cases call.processFunc with
  | processBurnEvent =>
    cases e with
    | assertionError message => exact HandlerState.removeFrom_withTasks ..
    | _ => rfl
  | _ => rfl

/-- What was prepared, with whatever tasks there are, leads to the same. -/
theorem tryUpdate_withTasks (prepared : Prepared σ τ) : ∃ putTasks',
    (tryUpdate call.log.address (prepared.withTasks putTasks) call.attempt call.onError).2 =
      (tryUpdate call.log.address prepared call.attempt call.onError).2.withTasks putTasks' := by
  rcases prepared with ⟨e | _ | ⟨pool, update⟩, s⟩
  · exact ⟨putTasks, rfl⟩
  · exact ⟨putTasks, rfl⟩
  · have hattempt := call.attempt_withTasks putTasks pool update s
    simp only [tryUpdate, Outcome.withTasks] at hattempt ⊢
    rw [hattempt]
    rcases call.attempt pool update s with ⟨e | _, s'⟩
    · exact ⟨putTasks, congrArg Prod.snd (onError_withTasks putTasks pool e s')⟩
    · exact ⟨putTasks ++ [call.log.address], rfl⟩

/-- A handler takes no notice of the tasks. -/
theorem next_withTasks (abi : EthAbi Topic) (call : Handling Topic σ τ) (s : HandlerState σ τ) :
    ∃ putTasks', call.next abi (s.withTasks putTasks) = (call.next abi s).withTasks putTasks' := by
  obtain ⟨processFunc, log, degenbot⟩ := call
  have hnew : ∀ decode : List UInt8 → Except PyError Address,
      (processNewPoolEvent degenbot decode log (s.withTasks putTasks)).2 =
        (processNewPoolEvent degenbot decode log s).2.withTasks putTasks := by
    intro decode
    rw [processNewPoolEvent, processNewPoolEvent]
    cases decode log.data with
    | error e => rfl
    | ok poolAddress => exact HandlerState.addPool_withTasks ..
  have hupdates : ∀ prepare : HandlerState σ τ → Prepared σ τ,
      (∀ t, next abi ⟨processFunc, log, degenbot⟩ t = (tryUpdate log.address (prepare t)
        (attempt ⟨processFunc, log, degenbot⟩) (onError ⟨processFunc, log, degenbot⟩)).2) →
      prepare (s.withTasks putTasks) = Outcome.withTasks (prepare s) putTasks →
      ∃ putTasks', next abi ⟨processFunc, log, degenbot⟩ (s.withTasks putTasks) =
        (next abi ⟨processFunc, log, degenbot⟩ s).withTasks putTasks' := by
    intro prepare hnext hprepare
    rw [hnext, hnext, hprepare]
    exact tryUpdate_withTasks putTasks (prepare s)
  cases processFunc with
  | processSyncEvent =>
    exact hupdates (prepareSync abi degenbot log) (fun _ => rfl) (prepareDecoded_withTasks ..)
  | processSwapEvent =>
    exact hupdates (prepareSwap abi degenbot log) (fun _ => rfl) (prepareDecoded_withTasks ..)
  | processMintEvent =>
    exact hupdates (prepareLiquidity abi degenbot abi.mint 1 log) (fun _ => rfl)
      (prepareLiquidity_withTasks ..)
  | processBurnEvent =>
    exact hupdates (prepareLiquidity abi degenbot abi.burn (-1) log) (fun _ => rfl)
      (prepareLiquidity_withTasks ..)
  | processNewV2PoolEvent => exact ⟨putTasks, hnew _⟩
  | processNewV3PoolEvent => exact ⟨putTasks, hnew _⟩

theorem run_withTasks (abi : EthAbi Topic) (calls : List (Handling Topic σ τ)) :
    ∀ (s : HandlerState σ τ) (putTasks : List Address), ∃ putTasks',
      run abi calls (s.withTasks putTasks) = (run abi calls s).withTasks putTasks' := by
  induction calls with
  | nil => exact fun _ putTasks => ⟨putTasks, rfl⟩
  | cons call rest ih =>
    intro s putTasks
    obtain ⟨putTasks', hnext⟩ := call.next_withTasks putTasks abi s
    obtain ⟨putTasks'', hrest⟩ := ih (call.next abi s) putTasks'
    refine ⟨putTasks'', ?_⟩
    show run abi rest (call.next abi (s.withTasks putTasks)) = _
    rw [hnext, hrest]
    rfl

theorem run_append (abi : EthAbi Topic) (before after : List (Handling Topic σ τ))
    (s : HandlerState σ τ) : run abi (before ++ after) s = run abi after (run abi before s) :=
  List.foldl_append

end Handling
end Tasks

section Seen
variable {factoryOf : Address → Address} {abi : EthAbi Topic} {poolAddress : Address} {pool : Pool}
  {helper : σ} {seen : List (Handling Topic σ τ)} {s : HandlerState σ τ}

theorem Sees.withTasks (h : Sees factoryOf abi poolAddress pool helper seen s)
    (putTasks : List Address) :
    Sees factoryOf abi poolAddress pool helper seen (s.withTasks putTasks) :=
  ⟨h.registered, ⟨h.own.made, h.own.own⟩, h.managed, h.holds⟩

theorem Dropped.withTasks (h : Dropped factoryOf abi poolAddress pool helper seen s)
    (putTasks : List Address) :
    Dropped factoryOf abi poolAddress pool helper seen (s.withTasks putTasks) :=
  ⟨h.registered, ⟨h.own.made, h.own.own⟩, h.loose, h.holds⟩

end Seen

/-! ### The handlers of the running bot -/

/-- The other tasks put addresses at most. -/
theorem Trading.handlers_step [DecidableEq Id] {abi : EthAbi Topic} {allArbs : AllArbs Id}
    {w next : Trading σ τ Id} {s : Trading.Step Topic σ τ Id} (hother : ∀ call, s ≠ .handle call)
    (hnext : w.step abi allArbs s = .ok next) :
    ∃ putTasks, next.pipeline.handlers = w.pipeline.handlers.withTasks putTasks := by
  cases s with
  | handle call => exact absurd rfl (hother call)
  | runPut i =>
    cases hnext
    show ∃ putTasks, (w.pipeline.runPut i).handlers = _
    rw [Pipeline.runPut]
    split
    · exact ⟨_, rfl⟩
    · exact ⟨_, rfl⟩
  | iterate =>
    obtain ⟨finder, _, hfinder⟩ := bind_eq_ok.mp hnext
    cases hfinder
    exact ⟨_, rfl⟩
  | submit i calculation =>
    cases hnext
    show ∃ putTasks, (w.submit i calculation).pipeline.handlers = _
    rw [Trading.submit]
    split
    · exact ⟨_, rfl⟩
    · exact ⟨_, rfl⟩
  | select i completion =>
    cases hnext
    rcases select_cases allArbs w i completion with hsame | ⟨_, _, _, hleft⟩
    · exact ⟨_, congrArg (fun w => w.pipeline.handlers) hsame⟩
    · exact ⟨_, congrArg (fun w => w.pipeline.handlers) hleft⟩

namespace LiveBot
section Run
variable [DecidableEq Topic] [DecidableEq Id] (abi : EthAbi Topic) (events : Events Topic)
  (allArbs : AllArbs Id)

/-- The handler that is called in a step. -/
def called (w : LiveBot Topic σ τ Id) : Step Topic σ τ Id → Option (Handling Topic σ τ)
  | .receive degenbot =>
    match w.creamEvents.receive with
    | none => none
    | some (log, _) => (w.due events log).map fun call => ⟨call.1, call.2, degenbot⟩
  | _ => none

/-- All that are called in a run, in order. -/
def calls (w : LiveBot Topic σ τ Id) : List (Step Topic σ τ Id) → List (Handling Topic σ τ)
  | [] => []
  | s :: rest =>
    match w.step abi events allArbs s with
    | .error _ => []
    | .ok next => (w.called events s).toList ++ next.calls rest

/-- What is published in a run. -/
def logs (steps : List (Step Topic σ τ Id)) : List (Log Topic) :=
  steps.filterMap fun s =>
    match s with
    | .publish log => some log
    | _ => none

end Run

section Steps
variable [DecidableEq Topic] [DecidableEq Id] {abi : EthAbi Topic} {events : Events Topic}
  {allArbs : AllArbs Id} {w next last : LiveBot Topic σ τ Id}

theorem calls_cons {s : Step Topic σ τ Id} {rest : List (Step Topic σ τ Id)}
    (hnext : w.step abi events allArbs s = .ok next) :
    w.calls abi events allArbs (s :: rest) =
      (w.called events s).toList ++ next.calls abi events allArbs rest := by
  rw [calls, hnext]

/-- A step is a message that is handled, or is nothing to the handlers. -/
theorem handlers_step (hworking : w.trading.Working allArbs) {s : Step Topic σ τ Id}
    (hnext : w.step abi events allArbs s = .ok next) :
    ∃ putTasks, next.trading.pipeline.handlers =
      (Handling.run abi (w.called events s).toList w.trading.pipeline.handlers).withTasks putTasks := by
  cases s with
  | publish log =>
    cases hnext
    exact ⟨_, rfl⟩
  | receive degenbot =>
    rcases receive_cases abi events hworking degenbot with
      ⟨hnone, hsame⟩ | ⟨log, creamEvents, trading, hreceive, hafter, _, hcall⟩
    · cases hsame.symm.trans hnext
      simp only [called, hnone]
      exact ⟨_, rfl⟩
    · cases hafter.symm.trans hnext
      simp only [called, hreceive]
      rcases hcall with ⟨hnone, rfl⟩ | ⟨call, hdue, hstep⟩
      · rw [hnone]
        exact ⟨_, rfl⟩
      · rw [hdue]
        cases hstep
        exact ⟨_, rfl⟩
  | updateBotState firstEvent =>
    cases hnext
    rw [trading_updateBotState]
    exact ⟨_, rfl⟩
  | task s other =>
    obtain ⟨trading, htrading, hw⟩ := bind_eq_ok.mp hnext
    cases hw
    exact Trading.handlers_step other htrading

/-- Whatever the other tasks do, the managers, the helpers and the snapshot are what the
handlers alone make of the messages received. -/
theorem handlers_after (steps : List (Step Topic σ τ Id)) : ∀ {w : LiveBot Topic σ τ Id},
    w.trading.Working allArbs → w.after abi events allArbs steps = .ok last →
    ∃ putTasks, last.trading.pipeline.handlers = (Handling.run abi
      (w.calls abi events allArbs steps) w.trading.pipeline.handlers).withTasks putTasks := by
  induction steps with
  | nil =>
    intro w _ hlast
    cases hlast
    exact ⟨_, rfl⟩
  | cons s rest ih =>
    intro w hworking hlast
    obtain ⟨next, hnext, hrest⟩ := after_cons.mp hlast
    obtain ⟨next', hnext', hkept, _⟩ := step_trading abi events hworking s
    cases hnext.symm.trans hnext'
    obtain ⟨putTasks, hhandlers⟩ := handlers_step hworking hnext
    obtain ⟨putTasks', hafter⟩ := ih hkept hrest
    obtain ⟨putTasks'', hrun⟩ := Handling.run_withTasks abi
      (next.calls abi events allArbs rest)
      (Handling.run abi (w.called events s).toList w.trading.pipeline.handlers) putTasks
    refine ⟨putTasks', ?_⟩
    rw [hafter, hhandlers, hrun, calls_cons hnext, Handling.run_append]
    rfl

/-- With a first event the calls are those that the messages received are due. -/
theorem called_step (hworking : w.trading.Working allArbs) (hknown : w.firstEvent ≠ none)
    {s : Step Topic σ τ Id} (hnext : w.step abi events allArbs s = .ok next) :
    ∃ received, next.creamEvents.received = w.creamEvents.received ++ received ∧
      (w.called events s).toList.map (fun call => (call.processFunc, call.log)) =
        received.filterMap (dueCall events) := by
  cases s with
  | publish log =>
    cases hnext
    exact ⟨[], by rw [Channel.received_publish, List.append_nil], rfl⟩
  | receive degenbot =>
    rcases receive_cases abi events hworking degenbot with
      ⟨hnone, hsame⟩ | ⟨log, creamEvents, trading, hreceive, hafter, _, _⟩
    · cases hsame.symm.trans hnext
      refine ⟨[], (List.append_nil _).symm, ?_⟩
      simp only [called, hnone]
      rfl
    · cases hafter.symm.trans hnext
      refine ⟨[log], (Channel.published_receive hreceive).2.2.1, ?_⟩
      simp only [called, hreceive, due_eq hknown]
      cases hdue : dueCall events log with
      | none => simp [hdue]
      | some call => simp [hdue]
  | updateBotState firstEvent =>
    cases hnext
    exact ⟨[], by rw [creamEvents_updateBotState, List.append_nil], rfl⟩
  | task s other =>
    obtain ⟨trading, _, hw⟩ := bind_eq_ok.mp hnext
    cases hw
    exact ⟨[], (List.append_nil _).symm, rfl⟩

theorem calls_after (steps : List (Step Topic σ τ Id)) : ∀ {w : LiveBot Topic σ τ Id},
    w.trading.Working allArbs → NeverUnset steps → w.firstEvent ≠ none →
    w.after abi events allArbs steps = .ok last →
    ∃ received, last.creamEvents.received = w.creamEvents.received ++ received ∧
      (w.calls abi events allArbs steps).map (fun call => (call.processFunc, call.log)) =
        received.filterMap (dueCall events) := by
  induction steps with
  | nil =>
    intro w _ _ _ hlast
    cases hlast
    exact ⟨[], (List.append_nil _).symm, rfl⟩
  | cons s rest ih =>
    intro w hworking hset hknown hlast
    obtain ⟨next, hnext, hrest⟩ := after_cons.mp hlast
    obtain ⟨next', hnext', hkept, _⟩ := step_trading abi events hworking s
    cases hnext.symm.trans hnext'
    obtain ⟨hfirst, hset⟩ := neverUnset_cons.mp hset
    obtain ⟨received, hreceived, hcalled⟩ := called_step hworking hknown hnext
    obtain ⟨later, hlater, hcalls⟩ := ih hkept hset (known_step hworking hfirst hknown hnext) hrest
    refine ⟨received ++ later, ?_, ?_⟩
    · rw [hlater, hreceived, List.append_assoc]
    · rw [calls_cons hnext, List.map_append, hcalled, hcalls, List.filterMap_append]

/-- What is published waits or has been received. -/
theorem logs_after (steps : List (Step Topic σ τ Id)) : ∀ {w : LiveBot Topic σ τ Id},
    w.trading.Working allArbs → w.creamEvents.isSubscribed = true →
    w.after abi events allArbs steps = .ok last →
    last.creamEvents.received ++ last.creamEvents.waiting =
      w.creamEvents.received ++ w.creamEvents.waiting ++ logs steps := by
  induction steps with
  | nil =>
    intro w _ _ hlast
    cases hlast
    exact (List.append_nil _).symm
  | cons s rest ih =>
    intro w hworking hsubscribed hlast
    obtain ⟨next, hnext, hrest⟩ := after_cons.mp hlast
    obtain ⟨next', hnext', hkept, _⟩ := step_trading abi events hworking s
    cases hnext.symm.trans hnext'
    have hlogs : logs (s :: rest) = logs [s] ++ logs rest := List.filterMap_append (l := [s]) ..
    have hstep : next.creamEvents.received ++ next.creamEvents.waiting =
        w.creamEvents.received ++ w.creamEvents.waiting ++ logs [s] := by
      cases s with
      | publish log =>
        cases hnext
        show (w.creamEvents.publish log).received ++ (w.creamEvents.publish log).waiting = _
        rw [Channel.received_publish, Channel.waiting_publish log hsubscribed, List.append_assoc]
        rfl
      | receive degenbot =>
        rcases step_creamEvents hworking hnext with hsame | ⟨_, hs, _⟩ | ⟨_, log, _, hreceive⟩
        · rw [hsame]
          exact (List.append_nil _).symm
        · cases hs
        · obtain ⟨_, _, hreceived, hwaiting⟩ := Channel.published_receive hreceive
          rw [hreceived, hwaiting, List.append_assoc]
          exact (List.append_nil _).symm
      | updateBotState firstEvent =>
        cases hnext
        rw [creamEvents_updateBotState]
        exact (List.append_nil _).symm
      | task s other =>
        rcases step_creamEvents hworking hnext with hsame | ⟨_, hs, _⟩ | ⟨_, _, hs, _⟩
        · rw [hsame]
          exact (List.append_nil _).symm
        · cases hs
        · cases hs
    have hstill := isSubscribed_step hworking hnext
    rw [hsubscribed] at hstill
    rw [ih hkept hstill hrest, hstep, hlogs, List.append_assoc]

/-- Each call is of a message that is received with this degenbot. -/
theorem mem_calls (steps : List (Step Topic σ τ Id)) : ∀ {w : LiveBot Topic σ τ Id},
    ∀ call ∈ w.calls abi events allArbs steps, .receive call.degenbot ∈ steps := by
  induction steps with
  | nil => exact fun call hcall => nomatch hcall
  | cons s rest ih =>
    intro w call hcall
    rw [calls] at hcall
    cases hnext : w.step abi events allArbs s with
    | error e =>
      rw [hnext] at hcall
      cases hcall
    | ok next =>
      rw [hnext] at hcall
      rcases List.mem_append.mp hcall with hcall | hcall
      · cases s with
        | receive degenbot =>
          simp only [called] at hcall
          cases hreceive : w.creamEvents.receive with
          | none => simp [hreceive] at hcall
          | some received =>
            simp only [hreceive, Option.mem_toList, Option.map_eq_some_iff] at hcall
            obtain ⟨_, _, rfl⟩ := hcall
            exact List.mem_cons_self ..
        | _ => cases hcall
      · exact List.mem_cons_of_mem s (ih call hcall)

/-- What a helper sees in a run. -/
theorem sees_after {factoryOf : Address → Address} {poolAddress : Address} {pool : Pool} {helper : σ}
    (hworking : w.trading.Working allArbs)
    (hsees : Sees factoryOf abi poolAddress pool helper [] w.trading.pipeline.handlers)
    {steps : List (Step Topic σ τ Id)}
    (hlawful : ∀ degenbot, .receive degenbot ∈ steps → degenbot.Lawful factoryOf)
    (hlast : w.after abi events allArbs steps = .ok last) :
    Sees factoryOf abi poolAddress pool helper (w.calls abi events allArbs steps)
        last.trading.pipeline.handlers ∨
      ∃ before cut after, w.calls abi events allArbs steps = before ++ cut :: after ∧
        TakesAway abi poolAddress cut (Handling.run abi before w.trading.pipeline.handlers) ∧
        Dropped factoryOf abi poolAddress pool helper (before ++ [cut])
          last.trading.pipeline.handlers := by
  obtain ⟨putTasks, hhandlers⟩ := handlers_after steps hworking hlast
  rw [hhandlers]
  have hlawful : ∀ call ∈ w.calls abi events allArbs steps,
      call.degenbot.Lawful factoryOf := fun call hcall => hlawful _ (mem_calls steps call hcall)
  rcases hsees.run _ hlawful with ⟨_, hsees⟩ | ⟨before, cut, after, hsplit, _, htakes, hdropped⟩
  · exact .inl (hsees.withTasks putTasks)
  · exact .inr ⟨before, cut, after, hsplit, htakes, hdropped.withTasks putTasks⟩

/-- From the subscription on. -/
theorem heard_after {missed : List (Log Topic)} (hworking : w.trading.Working allArbs)
    (hstart : w.creamEvents = .subscribed missed [] []) (hknown : w.firstEvent ≠ none)
    {steps : List (Step Topic σ τ Id)} (hlast : w.after abi events allArbs steps = .ok last) :
    last.creamEvents.received ++ last.creamEvents.waiting = logs steps ∧
      (NeverUnset steps →
        (w.calls abi events allArbs steps).map (fun call => (call.processFunc, call.log)) =
          last.creamEvents.received.filterMap (dueCall events)) := by
  have hempty : w.creamEvents.received = [] ∧ w.creamEvents.waiting = [] := by
    rw [hstart]
    exact ⟨rfl, rfl⟩
  have hlogs := logs_after steps hworking (by rw [hstart]; rfl) hlast
  rw [hempty.1, hempty.2] at hlogs
  refine ⟨hlogs, fun hset => ?_⟩
  obtain ⟨received, hreceived, hcalls⟩ := calls_after steps hworking hset hknown hlast
  rw [hempty.1, List.nil_append] at hreceived
  rw [hcalls, hreceived]

/-- It sees all the logs of its pool, or those up to the Burn that takes it away. -/
theorem seen_after {factoryOf : Address → Address} {poolAddress : Address} {pool : Pool} {helper : σ}
    (hworking : w.trading.Working allArbs)
    (hsees : Sees factoryOf abi poolAddress pool helper [] w.trading.pipeline.handlers)
    {steps : List (Step Topic σ τ Id)}
    (hlawful : ∀ degenbot, .receive degenbot ∈ steps → degenbot.Lawful factoryOf)
    (hlast : w.after abi events allArbs steps = .ok last) :
    ∃ seen unseen, w.calls abi events allArbs steps = seen ++ unseen ∧
      last.trading.pipeline.handlers.helpers.get pool.object =
        (seen.filter fun call => call.log.address = poolAddress).foldl
          (fun helper call => call.applied abi helper) helper ∧
      ((unseen = [] ∧
          helperOf factoryOf last.trading.pipeline.handlers.poolManagers poolAddress = some pool) ∨
        ∃ before cut, seen = before ++ [cut] ∧
          TakesAway abi poolAddress cut (Handling.run abi before w.trading.pipeline.handlers)) := by
  rcases sees_after hworking hsees hlawful hlast with
    hseen | ⟨before, cut, after, hsplit, htakes, hdropped⟩
  · exact ⟨_, [], (List.append_nil _).symm, hseen.holds, .inl ⟨rfl, hseen.managed⟩⟩
  · refine ⟨before ++ [cut], after, ?_, hdropped.holds, .inr ⟨before, cut, rfl, htakes⟩⟩
    rw [hsplit, List.append_assoc]
    rfl

end Steps

section Start
variable {allArbs : AllArbs Id} {factoryOf : Address → Address}
  {s : HandlerState σ τ}

/-- The helper that a cycle has of a pool, before any message. -/
theorem sees_start (abi : EthAbi Topic) (missed : List (Log Topic)) (firstEvent : Nat)
    (hregistered : Registered factoryOf s.poolManagers) (hown : OwnObjects factoryOf s)
    (hconnected : Connected allArbs s) {arb : UniswapLpCycle Id} (harb : arb ∈ allArbs.cycles)
    {pool : Pool} (hpool : pool ∈ arb.swapPools) :
    Sees factoryOf abi pool.address pool (s.helpers.get pool.object) [] (start missed firstEvent
      s.poolManagers s.helpers s.snapshot : LiveBot Topic σ τ Id).trading.pipeline.handlers :=
  ⟨hregistered, ⟨hown.made, hown.own⟩, hregistered.managed_iff.mp (hconnected arb harb pool hpool), rfl⟩

end Start
end LiveBot

/-- **At any time the helpers of the cycles hold what the messages have made of them.** In
whatever order the tasks take their turns nothing is raised, what is published is received in
order, and the handlers are called on just what is due of it, if no app state unsets the first
event. The helper that a cycle has of a pool holds what the calls on the pool's logs have made
of it: all of them, or those up to the first Burn that took it away from the managers. -/
theorem live_pools_follow_their_logs [DecidableEq Topic] [DecidableEq Id] (abi : EthAbi Topic)
    (events : Events Topic) (firstEvent : Nat) (allArbs : AllArbs Id) (missed : List (Log Topic))
    (factoryOf : Address → Address) (s : HandlerState σ τ)
    (hregistered : Registered factoryOf s.poolManagers) (hown : OwnObjects factoryOf s)
    (hconnected : Connected allArbs s) (steps : List (LiveBot.Step Topic σ τ Id))
    (hlawful : ∀ degenbot, .receive degenbot ∈ steps → degenbot.Lawful factoryOf) :
    ∀ w : LiveBot Topic σ τ Id, w = .start missed firstEvent s.poolManagers s.helpers s.snapshot →
    ∃ last : LiveBot Topic σ τ Id, w.after abi events allArbs steps = .ok last ∧
      last.creamEvents.received ++ last.creamEvents.waiting = LiveBot.logs steps ∧
      (LiveBot.NeverUnset steps →
        (w.calls abi events allArbs steps).map (fun call => (call.processFunc, call.log)) =
          last.creamEvents.received.filterMap (dueCall events)) ∧
      ∀ arb ∈ allArbs.cycles, ∀ pool ∈ arb.swapPools, ∃ seen unseen,
        w.calls abi events allArbs steps = seen ++ unseen ∧
        last.trading.pipeline.handlers.helpers.get pool.object =
          (seen.filter fun call => call.log.address = pool.address).foldl
            (fun helper call => call.applied abi helper) (s.helpers.get pool.object) ∧
        ((unseen = [] ∧
            helperOf factoryOf last.trading.pipeline.handlers.poolManagers pool.address = some pool) ∨
          ∃ before cut, seen = before ++ [cut] ∧
            TakesAway abi pool.address cut (Handling.run abi before w.trading.pipeline.handlers)) := by
  intro w hw
  have hworking : w.trading.Working allArbs := by
    rw [hw]
    exact Trading.working_start allArbs ..
  obtain ⟨last, hlast, _⟩ := LiveBot.exists_after abi events steps hworking
  obtain ⟨hlogs, hcalls⟩ := LiveBot.heard_after hworking (by rw [hw]; rfl)
    (by rw [hw]; exact Option.some_ne_none firstEvent) hlast
  refine ⟨last, hlast, hlogs, hcalls, fun arb harb pool hpool => ?_⟩
  have hstart := LiveBot.sees_start abi missed firstEvent hregistered hown hconnected harb hpool
  rw [← hw] at hstart
  exact LiveBot.seen_after hworking hstart hlawful hlast

/-- **The loop over messages makes the calls of the running bot.** If the messages that Redis
hands out carry the logs that the bot has received in a run, and no app state unsets the first
event, the loop calls the same handlers in the same order, each on the event of its log. -/
theorem live_calls_of_messages [DecidableEq Id] (abi : EthAbi String) (events : Events String)
    (firstEvent : Nat) (allArbs : AllArbs Id) (missed : List (Log String))
    (poolManagers : Dict Address TrackedPools) (helpers : Heap σ) (snapshot : τ)
    (steps : List (LiveBot.Step String σ τ Id)) (hset : LiveBot.NeverUnset steps)
    (python : Surroundings) (spelling : Spelling) (stream : List Message) :
    ∀ w : LiveBot String σ τ Id, w = .start missed firstEvent poolManagers helpers snapshot →
    ∃ last : LiveBot String σ τ Id, w.after abi events allArbs steps = .ok last ∧
      (HandsOut events python spelling stream last.creamEvents.received → ∀ known,
        (processUniswapEvents events python ⟨some known, []⟩ stream).calls =
          (w.calls abi events allArbs steps).map
            fun call => (call.processFunc, call.log.event spelling)) := by
  intro w hw
  have hworking : w.trading.Working allArbs := by
    rw [hw]
    exact Trading.working_start allArbs ..
  obtain ⟨last, hlast, _⟩ := LiveBot.exists_after abi events steps hworking
  obtain ⟨_, hcalls⟩ := LiveBot.heard_after hworking (by rw [hw]; rfl)
    (by rw [hw]; exact Option.some_ne_none firstEvent) hlast
  refine ⟨last, hlast, fun hstream known => ?_⟩
  rw [processUniswapEvents_of_known, List.nil_append, hstream.filterMap_dueOf, ← hcalls hset,
    List.map_map]
  rfl

/-! ### A Sync after the subscription -/

/-- Redis confirms the subscription, and then hands out the Sync. -/
def confirmedSync : List Message := [⟨"subscribe", .none, .bytes [0], .number 1⟩, syncMessage]

theorem confirmedSync_handsOut : HandsOut syncEvents syncLoads plainSpelling confirmedSync [syncLog] :=
  .other rfl (.log syncMessage_carries .nil)

/-- The Sync is published, and received after an app state. -/
def oneSync : List (LiveBot.Step String Nat Unit Nat) :=
  [.publish syncLog, .updateBotState (some (some 7)), .receive countingCalls]

theorem live_calls_of_messages_sync :
    (processUniswapEvents syncEvents syncLoads ⟨some (.number 5), []⟩ confirmedSync).calls =
      [(.processSyncEvent, syncLog.event plainSpelling)] := by
  obtain ⟨last, hlast, hcalls⟩ := live_calls_of_messages {someLiquidity with int24 _ := .ok 0} syncEvents
    5 threeArbs [] tracksPool1 ⟨fun _ => 0, 1⟩ () oneSync (by simp [oneSync]) syncLoads plainSpelling
    confirmedSync _ rfl
  cases hlast
  exact hcalls confirmedSync_handsOut _

/-! ### A cycle of two pools -/

/-- Pool 1 and then pool 2. -/
def oneCycle : AllArbs Nat := .ofList [(0, ⟨⟨0, .fill 9, [⟨.fill 1, 0⟩, ⟨.fill 2, 1⟩], maxInput⟩, "load"⟩)]

theorem oneCycle_connected : Connected oneCycle twoCounters := by
  intro arb harb pool hpool
  have hcycles : oneCycle.cycles = [⟨0, .fill 9, [⟨.fill 1, 0⟩, ⟨.fill 2, 1⟩], maxInput⟩] := rfl
  rw [hcycles, List.mem_singleton] at harb
  subst harb
  rw [twoCounters_registered.managed_iff]
  simp only [List.mem_cons, List.not_mem_nil, or_false] at hpool
  rcases hpool with rfl | rfl
  · rfl
  · rfl

def onlyMint : Events Unit := .ofList [((), .processMintEvent)]

/-- A Mint of each pool; the second waits while the finder does a round and an app state is
received. -/
def twoMints : List (LiveBot.Step Unit Nat Nat Nat) :=
  [.publish logOfPool1, .publish ⟨.fill 2, 100, [(), (), (), ()], []⟩, .receive (recordsEnd (.ok ())),
    .task .iterate nofun, .updateBotState (some (some 6)), .receive (recordsEnd (.ok ()))]

theorem twoMints_lawful : ∀ degenbot, .receive degenbot ∈ twoMints →
    degenbot.Lawful fun _ => .fill 20 := by
  intro degenbot hmem
  simp only [twoMints, List.mem_cons, List.not_mem_nil, or_false, reduceCtorEq, false_or,
    LiveBot.Step.receive.injEq, or_self] at hmem
  rw [hmem]
  exact oneFactory_lawful ..

def beforeTwoMints : LiveBot Unit Nat Nat Nat :=
  .start [] 5 twoCounters.poolManagers twoCounters.helpers twoCounters.snapshot

theorem beforeTwoMints_calls : beforeTwoMints.calls someLiquidity onlyMint oneCycle twoMints =
    [mintOfPool1 (.ok ()), ⟨.processMintEvent, ⟨.fill 2, 100, [(), (), (), ()], []⟩,
      recordsEnd (.ok ())⟩] := rfl

/-- Its helper counts the Mint of pool 1. -/
theorem live_pools_follow_their_logs_two_mints : ∃ last : LiveBot Unit Nat Nat Nat,
    beforeTwoMints.after someLiquidity onlyMint oneCycle twoMints = .ok last ∧
      last.trading.pipeline.handlers.helpers.get 0 = 1 := by
  obtain ⟨last, hlast, _, _, hpools⟩ := live_pools_follow_their_logs someLiquidity onlyMint 5 oneCycle []
    (fun _ => .fill 20) twoCounters twoCounters_registered twoCounters_own oneCycle_connected twoMints
    twoMints_lawful beforeTwoMints rfl
  refine ⟨last, hlast, ?_⟩
  obtain ⟨seen, unseen, hcalls, hholds, hall⟩ := hpools
    ⟨0, .fill 9, [⟨.fill 1, 0⟩, ⟨.fill 2, 1⟩], maxInput⟩ (by decide) ⟨.fill 1, 0⟩ (by decide)
  rw [beforeTwoMints_calls] at hcalls
  rcases hall with ⟨rfl, _⟩ | ⟨before, cut, rfl, htakes⟩
  · rw [List.append_nil] at hcalls
    rw [← hcalls] at hholds
    exact hholds
  · -- None of them is a Burn.
    have hmem : cut ∈ before ++ [cut] ++ unseen := by simp
    have hburn := htakes.2.1
    simp only [← hcalls, List.mem_cons, List.not_mem_nil, or_false] at hmem
    rcases hmem with rfl | rfl
    · cases hburn
    · cases hburn

end CreamBots.App
