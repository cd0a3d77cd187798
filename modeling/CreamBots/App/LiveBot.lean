import CreamBots.App.Trading
import CreamBots.Data.PubSub

/-! The arb bot once it runs: from a published log to the calculations.

`process_uniswap_events` takes one message after the other and calls the handler that its
log is due, while the bootstrap service follows the state of the app and the tasks of the
trading loop take their turns. A log that is published waits for those before it
(`Awaits.step`), then its handler is called, and if that completes its update every arb found
for the pool is calculated again (`published_updates_calculated`).

Two things are relied on. Redis delivers what is published after the subscription, all of it
and in order (`Channel`). And no state of the app has null for the first event
(`NeverUnset`): with that the next message would be asked for its own block, which it does not
have, and its handler would not be called. -/
namespace CreamBots.App
open Data Builders

variable {Topic σ τ Id : Type}

/-- `cream_events`, as the bot sees it, the first event of its state, and its tasks. -/
structure LiveBot (Topic σ τ Id : Type) where
  creamEvents : Channel (Log Topic)
  firstEvent : Option Nat
  trading : Trading σ τ Id

namespace LiveBot

/-- A log is published, `process_uniswap_events` takes its next message, the bootstrap service
calls `update_bot_state`, or another task, which calls no handler, has its turn. Of an app state
the tasks read `first_event` alone; it may lack it, or have null for it. -/
inductive Step (Topic σ τ Id : Type) where
  | publish (log : Log Topic)
  | receive (degenbot : HelperCalls σ τ)
  | updateBotState (firstEvent : Option (Option Nat))
  | task (s : Trading.Step Topic σ τ Id) (other : ∀ call, s ≠ .handle call)

/-- No app state sets the first event to null. -/
def NeverUnset (steps : List (Step Topic σ τ Id)) : Prop := .updateBotState (some none) ∉ steps

@[simp] theorem neverUnset_nil : NeverUnset ([] : List (Step Topic σ τ Id)) := List.not_mem_nil

@[simp] theorem neverUnset_cons {s : Step Topic σ τ Id} {rest : List (Step Topic σ τ Id)} :
    NeverUnset (s :: rest) ↔ s ≠ .updateBotState (some none) ∧ NeverUnset rest := by
  rw [NeverUnset, List.mem_cons, not_or, ne_comm]
  rfl

@[simp] theorem neverUnset_append {steps rest : List (Step Topic σ τ Id)} :
    NeverUnset (steps ++ rest) ↔ NeverUnset steps ∧ NeverUnset rest := by
  rw [NeverUnset, List.mem_append, not_or]
  rfl

/-- `process_uniswap_events` has just subscribed; `initialize` has waited for a first event. -/
def start (missed : List (Log Topic)) (firstEvent : Nat) (poolManagers : Dict Address TrackedPools)
    (helpers : Heap σ) (snapshot : τ) : LiveBot Topic σ τ Id :=
  ⟨.subscribed missed [] [], some firstEvent, .start poolManagers helpers snapshot⟩

/-- `update_bot_state`, for what the app state has under `first_event`. -/
def updateBotState (w : LiveBot Topic σ τ Id) : Option (Option Nat) → LiveBot Topic σ τ Id
  | none => w
  | some firstEvent => {w with firstEvent}

@[simp] theorem creamEvents_updateBotState (w : LiveBot Topic σ τ Id) (firstEvent : Option (Option Nat)) :
    (w.updateBotState firstEvent).creamEvents = w.creamEvents := by
  cases firstEvent <;> rfl

@[simp] theorem trading_updateBotState (w : LiveBot Topic σ τ Id) (firstEvent : Option (Option Nat)) :
    (w.updateBotState firstEvent).trading = w.trading := by
  cases firstEvent <;> rfl

section Run
variable [DecidableEq Topic] (abi : EthAbi Topic) (events : Events Topic)

/-- The call that a message leads to. What is raised for it is caught, and the loop goes on
with the next. -/
def due (w : LiveBot Topic σ τ Id) (log : Log Topic) : Option (HandlerCall Topic) :=
  (handOver events w.firstEvent log).toOption.join

variable {events} in
/-- With a first event a log leads to the call that its first topic has in the table. -/
theorem due_eq {w : LiveBot Topic σ τ Id} (hknown : w.firstEvent ≠ none) (log : Log Topic) :
    w.due events log = dueCall events log := by
  obtain ⟨firstEvent, hfirst⟩ := Option.ne_none_iff_exists'.mp hknown
  rw [due, hfirst, handOver_eq]

variable [DecidableEq Id] (allArbs : AllArbs Id)

def receive (w : LiveBot Topic σ τ Id) (degenbot : HelperCalls σ τ) :
    Except PyError (LiveBot Topic σ τ Id) :=
  match w.creamEvents.receive with
  | none => .ok w
  | some (log, creamEvents) =>
    match w.due events log with
    | none => .ok {w with creamEvents}
    | some call => do
      let trading ← w.trading.step abi allArbs (.handle ⟨call.1, call.2, degenbot⟩)
      return {w with creamEvents, trading}

def step (w : LiveBot Topic σ τ Id) : Step Topic σ τ Id → Except PyError (LiveBot Topic σ τ Id)
  | .publish log => .ok {w with creamEvents := w.creamEvents.publish log}
  | .receive degenbot => w.receive abi events allArbs degenbot
  | .updateBotState firstEvent => .ok (w.updateBotState firstEvent)
  | .task s _ => do
    let trading ← w.trading.step abi allArbs s
    return {w with trading}

def after (w : LiveBot Topic σ τ Id) (steps : List (Step Topic σ τ Id)) :
    Except PyError (LiveBot Topic σ τ Id) :=
  steps.foldlM (step abi events allArbs) w

end Run

section Steps
variable [DecidableEq Topic] [DecidableEq Id] {abi : EthAbi Topic} {events : Events Topic}
  {allArbs : AllArbs Id} {w next : LiveBot Topic σ τ Id}

/-! ### What a step does -/

theorem after_cons {s : Step Topic σ τ Id} {rest : List (Step Topic σ τ Id)} :
    w.after abi events allArbs (s :: rest) = .ok next ↔
      ∃ middle, w.step abi events allArbs s = .ok middle ∧
        middle.after abi events allArbs rest = .ok next := by
  rw [after, List.foldlM_cons]
  exact bind_eq_ok

theorem after_append {steps rest : List (Step Topic σ τ Id)} :
    w.after abi events allArbs (steps ++ rest) = .ok next ↔
      ∃ middle, w.after abi events allArbs steps = .ok middle ∧
        middle.after abi events allArbs rest = .ok next := by
  rw [after, List.foldlM_append]
  exact bind_eq_ok

/-- Nothing is waiting, or the first of what waits is received and meets its handler, if it
is due one. -/
theorem receive_cases (abi : EthAbi Topic) (events : Events Topic)
    (hworking : w.trading.Working allArbs) (degenbot : HelperCalls σ τ) :
    (w.creamEvents.receive = none ∧ w.receive abi events allArbs degenbot = .ok w) ∨
      ∃ log creamEvents trading, w.creamEvents.receive = some (log, creamEvents) ∧
        w.receive abi events allArbs degenbot = .ok ⟨creamEvents, w.firstEvent, trading⟩ ∧
        trading.Working allArbs ∧
        ((w.due events log = none ∧ trading = w.trading) ∨
          ∃ call, w.due events log = some call ∧
            w.trading.step abi allArbs (.handle ⟨call.1, call.2, degenbot⟩) = .ok trading) := by
  rw [receive]
  cases hreceive : w.creamEvents.receive with
  | none => exact .inl ⟨rfl, rfl⟩
  | some received =>
    obtain ⟨log, creamEvents⟩ := received
    dsimp only
    cases hdue : w.due events log with
    | none => exact .inr ⟨log, creamEvents, w.trading, rfl, rfl, hworking, .inl ⟨hdue, rfl⟩⟩
    | some call =>
      obtain ⟨trading, htrading, hnext⟩ := hworking.step abi (.handle ⟨call.1, call.2, degenbot⟩)
      refine .inr ⟨log, creamEvents, trading, rfl, ?_, hnext, .inr ⟨call, hdue, htrading⟩⟩
      exact bind_eq_ok.mpr ⟨trading, htrading, rfl⟩

/-- What the trading loop does in a step: nothing, or a step of its own. -/
theorem step_trading (abi : EthAbi Topic) (events : Events Topic)
    (hworking : w.trading.Working allArbs) (s : Step Topic σ τ Id) :
    ∃ next, w.step abi events allArbs s = .ok next ∧ next.trading.Working allArbs ∧
      (next.trading = w.trading ∨ ∃ s', w.trading.step abi allArbs s' = .ok next.trading ∧
        ∀ arb, w.trading.Submits arb s' → ∃ other, s = .task s' other) := by
  cases s with
  | publish log => exact ⟨_, rfl, hworking, .inl rfl⟩
  | receive degenbot =>
    rcases receive_cases abi events hworking degenbot with
      ⟨_, hsame⟩ | ⟨log, creamEvents, trading, _, hnext, hkept, hcall⟩
    · exact ⟨w, hsame, hworking, .inl rfl⟩
    · refine ⟨_, hnext, hkept, ?_⟩
      rcases hcall with ⟨_, hsame⟩ | ⟨call, _, hstep⟩
      · exact .inl hsame
      · refine .inr ⟨_, hstep, fun arb hsubmits => ?_⟩
        obtain ⟨_, _, _, _, hs, _⟩ := hsubmits
        cases hs
  | updateBotState firstEvent =>
    refine ⟨_, rfl, ?_, .inl (trading_updateBotState ..)⟩
    rw [trading_updateBotState]
    exact hworking
  | task s other =>
    obtain ⟨trading, htrading, hnext⟩ := hworking.step abi s
    exact ⟨_, bind_eq_ok.mpr ⟨trading, htrading, rfl⟩, hnext,
      .inr ⟨s, htrading, fun _ _ => ⟨other, rfl⟩⟩⟩

theorem exists_after (abi : EthAbi Topic) (events : Events Topic)
    (steps : List (Step Topic σ τ Id)) : ∀ {w : LiveBot Topic σ τ Id}, w.trading.Working allArbs →
    ∃ last, w.after abi events allArbs steps = .ok last ∧
      last.trading.Working allArbs := by
  induction steps with
  | nil => exact fun h => ⟨_, rfl, h⟩
  | cons s rest ih =>
    intro w h
    obtain ⟨next, hnext, hworking, _⟩ := step_trading abi events h s
    obtain ⟨last, hlast, hworking⟩ := ih hworking
    exact ⟨last, after_cons.mpr ⟨next, hnext, hlast⟩, hworking⟩

/-! ### The first event -/

theorem known_step (hworking : w.trading.Working allArbs) {s : Step Topic σ τ Id}
    (hset : s ≠ .updateBotState (some none)) (hknown : w.firstEvent ≠ none)
    (hnext : w.step abi events allArbs s = .ok next) : next.firstEvent ≠ none := by
  cases s with
  | publish log =>
    cases hnext
    exact hknown
  | receive degenbot =>
    rcases receive_cases abi events hworking degenbot with ⟨_, hsame⟩ | ⟨_, _, _, _, hafter, _⟩
    · cases hsame.symm.trans hnext
      exact hknown
    · cases hafter.symm.trans hnext
      exact hknown
  | updateBotState firstEvent =>
    cases hnext
    rcases firstEvent with _ | _ | firstEvent
    · exact hknown
    · exact absurd rfl hset
    · exact Option.some_ne_none firstEvent
  | task s other =>
    obtain ⟨trading, _, htrading⟩ := bind_eq_ok.mp hnext
    cases htrading
    exact hknown

/-- A first event that is never unset stays known. -/
theorem known_after (steps : List (Step Topic σ τ Id)) : ∀ {w last : LiveBot Topic σ τ Id},
    w.trading.Working allArbs → NeverUnset steps → w.firstEvent ≠ none →
      w.after abi events allArbs steps = .ok last → last.firstEvent ≠ none := by
  induction steps with
  | nil =>
    intro w last _ _ hknown hlast
    cases hlast
    exact hknown
  | cons s rest ih =>
    intro w last hworking hset hknown hlast
    obtain ⟨next, hnext, hrest⟩ := after_cons.mp hlast
    obtain ⟨next', hnext', hkept, _⟩ := step_trading abi events hworking s
    cases hnext.symm.trans hnext'
    obtain ⟨hfirst, hset⟩ := neverUnset_cons.mp hset
    exact ih hkept hset (known_step hworking hfirst hknown hnext) hrest

/-! ### Waiting -/

/-- The log waits, with `earlier` before it among all that is delivered. -/
def Awaits (w : LiveBot Topic σ τ Id) (earlier : List (Log Topic)) (log : Log Topic) : Prop :=
  ∃ ahead behind, w.creamEvents.isSubscribed = true ∧
    w.creamEvents.waiting = ahead ++ log :: behind ∧ w.creamEvents.received ++ ahead = earlier

/-- The next message is this log, after those before it. -/
def Meets (w : LiveBot Topic σ τ Id) (earlier : List (Log Topic)) (log : Log Topic)
    (s : Step Topic σ τ Id) : Prop :=
  ∃ degenbot behind, s = .receive degenbot ∧ w.creamEvents.waiting = log :: behind ∧
    w.creamEvents.received = earlier

/-- The channel is left alone, published on, or received from. -/
theorem step_creamEvents (hworking : w.trading.Working allArbs) {s : Step Topic σ τ Id}
    (hnext : w.step abi events allArbs s = .ok next) :
    next.creamEvents = w.creamEvents ∨
      (∃ log, s = .publish log ∧ next.creamEvents = w.creamEvents.publish log) ∨
      ∃ degenbot log, s = .receive degenbot ∧
        w.creamEvents.receive = some (log, next.creamEvents) := by
  cases s with
  | publish log =>
    cases hnext
    exact .inr (.inl ⟨log, rfl, rfl⟩)
  | receive degenbot =>
    rcases receive_cases abi events hworking degenbot with
      ⟨_, hsame⟩ | ⟨log, creamEvents, trading, hreceive, hafter, _⟩
    · cases hsame.symm.trans hnext
      exact .inl rfl
    · cases hafter.symm.trans hnext
      exact .inr (.inr ⟨degenbot, log, rfl, hreceive⟩)
  | updateBotState firstEvent =>
    cases hnext
    exact .inl (creamEvents_updateBotState ..)
  | task s other =>
    obtain ⟨trading, _, htrading⟩ := bind_eq_ok.mp hnext
    cases htrading
    exact .inl rfl

theorem isSubscribed_step (hworking : w.trading.Working allArbs) {s : Step Topic σ τ Id}
    (hnext : w.step abi events allArbs s = .ok next) :
    next.creamEvents.isSubscribed = w.creamEvents.isSubscribed := by
  rcases step_creamEvents hworking hnext with hsame | ⟨log, _, hpublish⟩ | ⟨_, log, _, hreceive⟩
  · rw [hsame]
  · rw [hpublish, Channel.isSubscribed_publish]
  · exact Channel.isSubscribed_receive hreceive

/-- A log that waits goes on waiting until it is met. -/
theorem Awaits.step {earlier : List (Log Topic)} {log : Log Topic} (h : w.Awaits earlier log)
    (hworking : w.trading.Working allArbs) {s : Step Topic σ τ Id}
    (hnext : w.step abi events allArbs s = .ok next) :
    next.Awaits earlier log ∨ w.Meets earlier log s := by
  obtain ⟨ahead, behind, hsubscribed, hwaiting, hearlier⟩ := h
  have hstill := isSubscribed_step hworking hnext
  rw [hsubscribed] at hstill
  rcases step_creamEvents hworking hnext with
    hsame | ⟨other, _, hpublish⟩ | ⟨degenbot, first, rfl, hreceive⟩
  · refine .inl ⟨ahead, behind, hstill, ?_, ?_⟩
    · rw [hsame, hwaiting]
    · rw [hsame, hearlier]
  · refine .inl ⟨ahead, behind ++ [other], hstill, ?_, ?_⟩
    · rw [hpublish, Channel.waiting_publish other hsubscribed, hwaiting, List.append_assoc]
      rfl
    · rw [hpublish, Channel.received_publish, hearlier]
  · obtain ⟨_, _, hreceived, hfirst⟩ := Channel.published_receive hreceive
    rw [hwaiting] at hfirst
    cases ahead with
    | nil => exact .inr ⟨degenbot, behind, rfl, hwaiting, by rw [← hearlier, List.append_nil]⟩
    | cons _ ahead =>
      obtain ⟨rfl, hrest⟩ := List.cons.inj hfirst
      refine .inl ⟨ahead, behind, hstill, hrest.symm, ?_⟩
      rw [hreceived, ← hearlier, List.append_assoc]
      rfl

/-- It stays subscribed. -/
theorem isSubscribed_after (steps : List (Step Topic σ τ Id)) : ∀ {w last : LiveBot Topic σ τ Id},
    w.trading.Working allArbs → w.after abi events allArbs steps = .ok last →
      last.creamEvents.isSubscribed = w.creamEvents.isSubscribed := by
  induction steps with
  | nil =>
    intro w last _ hlast
    cases hlast
    rfl
  | cons s rest ih =>
    intro w last hworking hlast
    obtain ⟨next, hnext, hrest⟩ := after_cons.mp hlast
    obtain ⟨next', hnext', hkept, _⟩ := step_trading abi events hworking s
    cases hnext.symm.trans hnext'
    rw [ih hkept hrest, isSubscribed_step hworking hnext]

/-- A log that is published is met by the time that nothing waits any more. -/
theorem meets_of_published {log : Log Topic} (hworking : w.trading.Working allArbs)
    (hsubscribed : w.creamEvents.isSubscribed = true) {after : List (Step Topic σ τ Id)}
    {last : LiveBot Topic σ τ Id}
    (hlast : w.after abi events allArbs (.publish log :: after) = .ok last)
    (hdrained : last.creamEvents.waiting = []) :
    ∃ between s rest met, after = between ++ s :: rest ∧
      w.after abi events allArbs (.publish log :: between) = .ok met ∧
      met.Meets (w.creamEvents.received ++ w.creamEvents.waiting) log s := by
  obtain ⟨published, hpublished, hafter⟩ := after_cons.mp hlast
  cases hpublished
  have hawaits : Awaits ({w with creamEvents := w.creamEvents.publish log} : LiveBot Topic σ τ Id)
      (w.creamEvents.received ++ w.creamEvents.waiting) log := by
    refine ⟨w.creamEvents.waiting, [], ?_, Channel.waiting_publish log hsubscribed, ?_⟩
    · rw [Channel.isSubscribed_publish, hsubscribed]
    · rw [Channel.received_publish]
  have hstep : ∀ (v : LiveBot Topic σ τ Id) (s : Step Topic σ τ Id) (next : LiveBot Topic σ τ Id),
      v.trading.Working allArbs ∧ v.Awaits (w.creamEvents.received ++ w.creamEvents.waiting) log →
      v.step abi events allArbs s = .ok next →
      (next.trading.Working allArbs ∧
          next.Awaits (w.creamEvents.received ++ w.creamEvents.waiting) log) ∨
        v.Meets (w.creamEvents.received ++ w.creamEvents.waiting) log s := by
    intro v s next hv hnext
    obtain ⟨hkept, hwaits⟩ := hv
    obtain ⟨next', hnext', hstill, _⟩ := step_trading abi events hkept s
    cases hnext.symm.trans hnext'
    exact (hwaits.step hkept hnext).imp_left fun h => ⟨hstill, h⟩
  rcases foldlM_keeps_or (s := {w with creamEvents := w.creamEvents.publish log}) hstep
      ⟨hworking, hawaits⟩ hafter with
    ⟨_, ahead, behind, _, hwaiting, _⟩ | ⟨between, s, rest, met, hsplit, hbetween, hmeets⟩
  · rw [hdrained] at hwaiting
    simp at hwaiting
  · exact ⟨between, s, rest, met, hsplit, after_cons.mpr ⟨_, rfl, hbetween⟩, hmeets⟩

/-- What is to be calculated is calculated by the time that nothing is to be done any more. -/
theorem submits_of_pending {poolAddress : Address} {arb : UniswapLpCycle Id}
    (harb : arb ∈ findAffectedArbs allArbs poolAddress) (hworking : w.trading.Working allArbs)
    (hpending : w.trading.Pending poolAddress arb) {rest : List (Step Topic σ τ Id)}
    {last : LiveBot Topic σ τ Id} (hlast : w.after abi events allArbs rest = .ok last)
    (hidle : last.trading.Idle) :
    ∃ sooner s other later middle, rest = sooner ++ .task s other :: later ∧
      w.after abi events allArbs sooner = .ok middle ∧ middle.trading.Submits arb s := by
  have hstep : ∀ (v : LiveBot Topic σ τ Id) (s : Step Topic σ τ Id) (next : LiveBot Topic σ τ Id),
      v.trading.Working allArbs ∧ v.trading.Pending poolAddress arb →
      v.step abi events allArbs s = .ok next →
      (next.trading.Working allArbs ∧ next.trading.Pending poolAddress arb) ∨
        ∃ s' other, s = .task s' other ∧ v.trading.Submits arb s' := by
    intro v s next hv hnext
    obtain ⟨hkept, hstill⟩ := hv
    obtain ⟨next', hnext', hnextKept, hdoes⟩ := step_trading abi events hkept s
    cases hnext.symm.trans hnext'
    rcases hdoes with hsame | ⟨s', htrading, htask⟩
    · refine .inl ⟨hnextKept, ?_⟩
      rw [hsame]
      exact hstill
    · rcases hstill.step harb hkept abi htrading with hstill | hsubmits
      · exact .inl ⟨hnextKept, hstill⟩
      · obtain ⟨other, hs⟩ := htask arb hsubmits
        exact .inr ⟨s', other, hs, hsubmits⟩
  rcases foldlM_keeps_or hstep ⟨hworking, hpending⟩ hlast with
    ⟨_, hstill⟩ | ⟨sooner, s, later, middle, hsplit, hsooner, s', other, rfl, hsubmits⟩
  · exact absurd hstill (hidle.not_pending _ _)
  · exact ⟨sooner, s', other, later, middle, hsplit, hsooner, hsubmits⟩

end Steps
end LiveBot

/-- **From the published log to the calculations.** Nothing is raised in any run. If one that
goes on after a log was published ends with nothing waiting and nothing to be done, the log
was received after those that were published before it, and if no app state had unset the
first event by then and its handler completed the update, each arb found for its pool was
submitted for calculation after that. -/
theorem published_updates_calculated [DecidableEq Topic] [DecidableEq Id] (abi : EthAbi Topic)
    (events : Events Topic) (firstEvent : Nat) (allArbs : AllArbs Id) (missed : List (Log Topic))
    (poolManagers : Dict Address TrackedPools) (helpers : Heap σ) (snapshot : τ)
    (before after : List (LiveBot.Step Topic σ τ Id)) (log : Log Topic) :
    ∃ reached last : LiveBot Topic σ τ Id,
      (LiveBot.start missed firstEvent poolManagers helpers snapshot).after abi events allArbs
        before = .ok reached ∧
      reached.after abi events allArbs (.publish log :: after) = .ok last ∧
      (last.creamEvents.waiting = [] → last.trading.Idle →
        ∃ between degenbot rest met, after = between ++ .receive degenbot :: rest ∧
          reached.after abi events allArbs (.publish log :: between) = .ok met ∧
          met.creamEvents.received = reached.creamEvents.received ++ reached.creamEvents.waiting ∧
          met.creamEvents.waiting.head? = some log ∧
          (LiveBot.NeverUnset (before ++ between) →
            ∀ processFunc, dueCall events log = some (processFunc, log) →
            Handling.completed abi ⟨processFunc, log, degenbot⟩ met.trading.pipeline.handlers =
              [log.address] →
            ∀ arb ∈ findAffectedArbs allArbs log.address,
              ∃ sooner s other later middle, rest = sooner ++ .task s other :: later ∧
                met.after abi events allArbs (.receive degenbot :: sooner) = .ok middle ∧
                middle.trading.Submits arb s)) := by
  obtain ⟨reached, hreached, hworking⟩ := LiveBot.exists_after abi events before
    (w := .start missed firstEvent poolManagers helpers snapshot) (Trading.working_start allArbs ..)
  have hsubscribed : reached.creamEvents.isSubscribed = true :=
    LiveBot.isSubscribed_after before (Trading.working_start allArbs ..) hreached
  obtain ⟨last, hlast, _⟩ := LiveBot.exists_after abi events (.publish log :: after) hworking
  refine ⟨reached, last, hreached, hlast, fun hdrained hidle => ?_⟩
  obtain ⟨between, _, rest, met, rfl, hmet, degenbot, behind, rfl, hwaiting, hreceived⟩ :=
    LiveBot.meets_of_published hworking hsubscribed hlast hdrained
  refine ⟨between, degenbot, rest, met, rfl, hmet, hreceived, by rw [hwaiting]; rfl, ?_⟩
  intro hset processFunc hdue hcompleted arb harb
  have hsplit : reached.after abi events allArbs
      ((.publish log :: between) ++ (.receive degenbot :: rest)) = .ok last := hlast
  obtain ⟨met', hmet', hrest⟩ := LiveBot.after_append.mp hsplit
  cases hmet.symm.trans hmet'
  obtain ⟨_, hmet', hmetWorking⟩ := LiveBot.exists_after abi events
    (.publish log :: between) hworking
  cases hmet.symm.trans hmet'
  obtain ⟨hbefore, hbetween⟩ := LiveBot.neverUnset_append.mp hset
  have hreachedKnown : reached.firstEvent ≠ none := LiveBot.known_after before
    (Trading.working_start allArbs ..) hbefore (Option.some_ne_none firstEvent) hreached
  have hknown : met.firstEvent ≠ none := LiveBot.known_after (.publish log :: between) hworking
    (LiveBot.neverUnset_cons.mpr ⟨by simp, hbetween⟩) hreachedKnown hmet
  obtain ⟨handled, hreceive, hlater⟩ := LiveBot.after_cons.mp hrest
  rcases LiveBot.receive_cases abi events hmetWorking degenbot with
    ⟨hnone, _⟩ | ⟨first, creamEvents, trading, hsome, hafter, hkept, hcall⟩
  · obtain ⟨_, hsome⟩ := Channel.exists_receive hwaiting
    rw [hnone] at hsome
    cases hsome
  · cases hafter.symm.trans hreceive
    obtain ⟨_, _, _, hfirst⟩ := Channel.published_receive hsome
    rw [hwaiting] at hfirst
    obtain ⟨rfl, _⟩ := List.cons.inj hfirst
    rw [LiveBot.due_eq hknown] at hcall
    rcases hcall with ⟨hnone, _⟩ | ⟨call, hsomeCall, hstep⟩
    · rw [hnone] at hdue
      cases hdue
    · cases hsomeCall.symm.trans hdue
      -- The handler has completed the update, so a task is there to put the address.
      have hput : trading.Pending log.address arb := by
        cases hstep
        refine .inl ?_
        show log.address ∈ (Handling.next abi ⟨processFunc, log, degenbot⟩ _).putTasks
        rw [Handling.putTasks_next, hcompleted]
        exact List.mem_append_right _ (List.mem_singleton_self _)
      obtain ⟨sooner, s, other, later, middle, hs, hsooner, hsubmits⟩ :=
        LiveBot.submits_of_pending (w := ⟨creamEvents, met.firstEvent, trading⟩) harb hkept hput
          hlater hidle
      exact ⟨sooner, s, other, later, middle, hs,
        LiveBot.after_cons.mpr ⟨_, hreceive, hsooner⟩, hsubmits⟩

/-! ### One Sync log of pool 1 -/

def onlySync : Events Unit := .ofList [((), .processSyncEvent)]

/-- The tasks after the Sync, which is received first. -/
def onlyTasks : List (LiveBot.Step Unit Nat Unit Nat) :=
  afterSync.attach.map fun s => .task s.1 (by
    have hall : ∀ s ∈ afterSync, ∀ call, s ≠ .handle call := by simp [afterSync]
    exact hall s.1 s.2)

/-- An app state comes before it. -/
theorem published_updates_calculated_sync : ∀ arb ∈ findAffectedArbs threeArbs (.fill 1),
    ∃ sooner s other later, onlyTasks = sooner ++ .task s other :: later ∧
      ∃ middle : Trading Nat Unit Nat, middle.Submits arb s := by
  obtain ⟨reached, last, hreached, hlast, hcalculated⟩ := published_updates_calculated someLiquidity
    onlySync 5 threeArbs [] tracksPool1 ⟨fun _ => 0, 1⟩ () [.updateBotState (some (some 6))]
    (.receive countingCalls :: onlyTasks) logOfPool1
  cases hreached
  cases hlast
  obtain ⟨between, degenbot, rest, met, hsplit, hmet, _, _, hsubmitted⟩ :=
    hcalculated rfl ⟨rfl, rfl, fun task htask => nomatch htask⟩
  intro arb harb
  cases between with
  | nil =>
    cases hsplit
    cases hmet
    obtain ⟨sooner, s, other, later, middle, hrest, _, hsubmits⟩ :=
      hsubmitted (by simp) .processSyncEvent rfl rfl arb harb
    exact ⟨sooner, s, other, later, hrest, middle.trading, hsubmits⟩
  | cons first between =>
    obtain ⟨_, htasks⟩ := List.cons.inj hsplit
    have hmem : .receive degenbot ∈ onlyTasks := by
      rw [htasks]
      exact List.mem_append_right _ (List.mem_cons_self ..)
    obtain ⟨_, _, hreceive⟩ := List.mem_map.mp hmem
    cases hreceive

end CreamBots.App
