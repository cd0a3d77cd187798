import CreamBots.App.EventService
import CreamBots.App.PoolService
import CreamBots.Data.PubSub

/-! The start-up of the arb bot against the publisher.

`ArbBot.run` starts the bootstrap task, waits until that has told it the first event,
loads all pools as they were in the block before, and only then starts
`process_uniswap_events`, which begins by subscribing. The publisher waits for none of
this: what it publishes before the subscription the bot never sees. So a pool is
followed without a gap exactly if none of its logs is published that early
(`no_update_lost_iff`), and the log that tells the bot to start always is
(`Kept.first_missed`, `first_update_lost`). -/
namespace CreamBots.App
open Data Builders

/-! ### The world and its steps -/

/-- What a helper's state is: that of its pool when the pool was created, brought up
to date by each handler call. -/
structure PoolModel (Topic σ : Type) where
  created : Address → σ
  update : σ → HandlerCall Topic → σ

/-- What a start-up is given. `history` holds the logs of the blocks before those that
the publisher publishes. -/
structure Setup (Id Topic σ : Type) where
  keccak : String → Topic
  pools : PoolModel Topic σ
  history : List (Log Topic)
  degenbot : ManagerClasses
  chainData : ChainData
  blacklists : Blacklists Id
  setOrder : List Address → List Address
  lpFiles : List (List PoolRecord)
  arbPaths2 : Dict Id (ArbPath Id)
  arbPaths3 : Dict Id (ArbPath Id)

/-- What `ArbBot.run` does next. -/
inductive Stage where
  | createPoolManagers
  | loadBlacklists
  | loadPools
  | subscribe
  | listen
deriving DecidableEq

/-- The two channels, as the bot sees them, and the bot. `helpers` has the state of each
helper that `load_pools` built, `calls` the handler calls made so far. -/
structure World (Id Topic σ : Type) where
  creamEvents : Channel (Log Topic)
  creamAppState : Channel (Option Nat)
  stage : Stage
  firstEvent : Option Nat
  poolManagers : Dict Address PoolManager
  blacklists : Blacklists Id
  allPools : AllPools
  allArbs : AllArbs Id
  helpers : Address → Option σ
  calls : List (HandlerCall Topic)

inductive Action (Topic : Type) where
  | publishEvent (log : Log Topic)
  | publishAppState
  | startBootstrap
  | updateBotState
  | createPoolManagers
  | loadBlacklists
  | loadPools
  | subscribe
  | processMessage

variable {Id Topic σ : Type} [DecidableEq Topic]

/-- `_EVENTS`. -/
def Setup.events (setup : Setup Id Topic σ) : Events Topic := uniswapEvents setup.keccak

/-- The state of a pool after these logs. -/
def PoolModel.stateAfter (pools : PoolModel Topic σ) (events : Events Topic)
    (logs : List (Log Topic)) (poolAddress : Address) : σ :=
  (logs.filterMap (poolCall events poolAddress)).foldl pools.update (pools.created poolAddress)

namespace World

/-- The bot before its first step; it knows no first event. -/
def start : World Id Topic σ where
  creamEvents := .idle
  creamAppState := .idle
  stage := .createPoolManagers
  firstEvent := none
  poolManagers := .empty
  blacklists := ⟨[], [], [], []⟩
  allPools := .empty
  allArbs := .empty
  helpers := fun _ => none
  calls := []

/-- The block of the first event that was published. -/
def firstPublished (w : World Id Topic σ) : Option Nat :=
  w.creamEvents.published.head?.map Log.blockNumber

variable (setup : Setup Id Topic σ)

/-- The logs of the chain. -/
def chain (w : World Id Topic σ) : List (Log Topic) := setup.history ++ w.creamEvents.published

/-- Blocks are published in increasing order, whole from the first on. -/
def publishEvent (log : Log Topic) (w : World Id Topic σ) : Option (World Id Topic σ) :=
  if (∀ e ∈ setup.history, e.blockNumber < log.blockNumber) ∧
      ∀ e ∈ w.creamEvents.published, e.blockNumber ≤ log.blockNumber then
    some {w with creamEvents := w.creamEvents.publish log}
  else none

/-- The publisher tells its state on the other channel. -/
def publishAppState (w : World Id Topic σ) : World Id Topic σ :=
  {w with creamAppState := w.creamAppState.publish w.firstPublished}

def startBootstrap (w : World Id Topic σ) : Option (World Id Topic σ) :=
  w.creamAppState.subscribe.map fun creamAppState => {w with creamAppState}

/-- `update_bot_state`, for the next message on `cream_app_state`. -/
def updateBotState (w : World Id Topic σ) : Option (World Id Topic σ) :=
  w.creamAppState.receive.map fun message =>
    {w with creamAppState := message.2, firstEvent := message.1}

/-- `create_pool_managers`, when `while not first_event` ends. -/
def createPoolManagers (w : World Id Topic σ) : Option (World Id Topic σ) :=
  match w.stage, w.firstEvent with
  | .createPoolManagers, some firstEvent =>
    if firstEvent = 0 then none
    else some {w with
      stage := .loadBlacklists
      poolManagers := App.createPoolManagers setup.degenbot setup.chainData firstEvent}
  | _, _ => none

def loadBlacklists (w : World Id Topic σ) : Option (World Id Topic σ) :=
  if w.stage = .loadBlacklists then
    some {w with stage := .loadPools, blacklists := setup.blacklists}
  else none

/-- `load_pools`. A helper is built from the chain up to the block before the first event. -/
def loadPools [DecidableEq Id] (w : World Id Topic σ) : Option (World Id Topic σ) :=
  match w.stage, w.firstEvent with
  | .loadPools, some firstEvent =>
    match App.loadPools setup.setOrder
      ⟨setup.chainData, w.blacklists, firstEvent, w.poolManagers, w.allPools, w.allArbs, false, false⟩
      setup.lpFiles setup.arbPaths2 setup.arbPaths3 with
    | .error _ => none
    | .ok loaded => some {w with
      stage := .subscribe
      allPools := loaded.botState.allPools
      allArbs := loaded.botState.allArbs
      helpers := fun poolAddress =>
        if poolAddress ∈ loaded.botState.allPools.keys then
          some (setup.pools.stateAfter setup.events
            ((w.chain setup).filter fun e => decide (e.blockNumber ≤ firstEvent - 1)) poolAddress)
        else none}
  | _, _ => none

/-- `process_uniswap_events` starts. -/
def subscribe (w : World Id Topic σ) : Option (World Id Topic σ) :=
  if w.stage = .subscribe then
    w.creamEvents.subscribe.map fun creamEvents => {w with stage := .listen, creamEvents}
  else none

/-- A handler call: the helper of the log's pool, if there is one, is updated. -/
def call (call : HandlerCall Topic) (w : World Id Topic σ) : World Id Topic σ :=
  {w with
    calls := w.calls ++ [call]
    helpers := fun poolAddress =>
      if call.2.address = poolAddress then
        (w.helpers poolAddress).map fun state => setup.pools.update state call
      else w.helpers poolAddress}

/-- `process_uniswap_events` takes its next message. -/
def processMessage (w : World Id Topic σ) : Option (World Id Topic σ) :=
  if w.stage = .listen then
    w.creamEvents.receive.map fun message =>
      match ((handOver setup.events w.firstEvent message.1).toOption).join with
      | none => {w with creamEvents := message.2}
      | some due => World.call setup due {w with creamEvents := message.2}
  else none

def step [DecidableEq Id] (w : World Id Topic σ) : Action Topic → Option (World Id Topic σ)
  | .publishEvent log => w.publishEvent setup log
  | .publishAppState => some w.publishAppState
  | .startBootstrap => w.startBootstrap
  | .updateBotState => w.updateBotState
  | .createPoolManagers => w.createPoolManagers setup
  | .loadBlacklists => w.loadBlacklists setup
  | .loadPools => w.loadPools setup
  | .subscribe => w.subscribe
  | .processMessage => w.processMessage setup

/-- A run, as the order in which the publisher and the tasks of the bot take steps. -/
def run [DecidableEq Id] (w : World Id Topic σ) : List (Action Topic) → Option (World Id Topic σ)
  | [] => some w
  | action :: rest => (w.step setup action).bind fun w' => w'.run rest

/-! ### What each step does -/

variable {setup} {w w' : World Id Topic σ}

omit [DecidableEq Topic] in
theorem publishEvent_eq_some {log : Log Topic} (h : w.publishEvent setup log = some w') :
    (∀ e ∈ setup.history, e.blockNumber < log.blockNumber) ∧
      (∀ e ∈ w.creamEvents.published, e.blockNumber ≤ log.blockNumber) ∧
      w' = {w with creamEvents := w.creamEvents.publish log} := by
  unfold publishEvent at h
  split at h
  · rename_i hguard
    exact ⟨hguard.1, hguard.2, (Option.some.inj h).symm⟩
  · cases h

omit [DecidableEq Topic] in
theorem createPoolManagers_eq_some (h : w.createPoolManagers setup = some w') :
    ∃ first, w.stage = .createPoolManagers ∧ w.firstEvent = some first ∧ first ≠ 0 ∧
      w' = {w with
        stage := .loadBlacklists
        poolManagers := App.createPoolManagers setup.degenbot setup.chainData first} := by
  unfold createPoolManagers at h
  split at h
  · rename_i first hstage hfirst
    split at h
    · cases h
    · rename_i hne
      exact ⟨first, hstage, hfirst, hne, (Option.some.inj h).symm⟩
  · cases h

omit [DecidableEq Topic] in
theorem loadBlacklists_eq_some (h : w.loadBlacklists setup = some w') :
    w.stage = .loadBlacklists ∧ w' = {w with stage := .loadPools, blacklists := setup.blacklists} := by
  unfold loadBlacklists at h
  split at h
  · rename_i hstage
    exact ⟨hstage, (Option.some.inj h).symm⟩
  · cases h

theorem loadPools_eq_some [DecidableEq Id] (h : w.loadPools setup = some w') :
    ∃ first loaded, w.stage = .loadPools ∧ w.firstEvent = some first ∧
      App.loadPools setup.setOrder ⟨setup.chainData, w.blacklists, first, w.poolManagers,
        w.allPools, w.allArbs, false, false⟩ setup.lpFiles setup.arbPaths2 setup.arbPaths3 =
          .ok loaded ∧
      w' = {w with
        stage := .subscribe
        allPools := loaded.botState.allPools
        allArbs := loaded.botState.allArbs
        helpers := fun poolAddress =>
          if poolAddress ∈ loaded.botState.allPools.keys then
            some (setup.pools.stateAfter setup.events
              ((w.chain setup).filter fun e => decide (e.blockNumber ≤ first - 1)) poolAddress)
          else none} := by
  unfold loadPools at h
  split at h
  · rename_i first hstage hfirst
    split at h
    · cases h
    · rename_i loaded hloaded
      exact ⟨first, loaded, hstage, hfirst, hloaded, (Option.some.inj h).symm⟩
  · cases h

omit [DecidableEq Topic] in
theorem subscribe_eq_some (h : w.subscribe = some w') :
    ∃ creamEvents, w.stage = .subscribe ∧ w.creamEvents.subscribe = some creamEvents ∧
      w' = {w with stage := .listen, creamEvents} := by
  unfold subscribe at h
  split at h
  · rename_i hstage
    obtain ⟨creamEvents, hsubscribe, rfl⟩ := Option.map_eq_some_iff.mp h
    exact ⟨creamEvents, hstage, hsubscribe, rfl⟩
  · cases h

/-- Once the first event is known, a log is handed to the handler it is due to. -/
theorem processMessage_eq_some (h : w.processMessage setup = some w') :
    ∃ log creamEvents, w.stage = .listen ∧ w.creamEvents.receive = some (log, creamEvents) ∧
      w'.creamEvents = creamEvents ∧
      ∀ first, w.firstEvent = some first → w' = {w with
        creamEvents
        calls := w.calls ++ (dueCall setup.events log).toList
        helpers := fun poolAddress => (w.helpers poolAddress).map fun state =>
          (poolCall setup.events poolAddress log).toList.foldl setup.pools.update state} := by
  unfold processMessage at h
  split at h
  · rename_i hstage
    obtain ⟨⟨log, creamEvents⟩, hreceive, rfl⟩ := Option.map_eq_some_iff.mp h
    refine ⟨log, creamEvents, hstage, hreceive, ?_, fun first hfirst => ?_⟩
    · split <;> rfl
    · rw [hfirst, handOver_eq]
      unfold poolCall
      cases hdue : dueCall setup.events log with
      | none => simp
      | some due =>
        simp only [World.call, Option.toList_some]
        congr 1
        funext poolAddress
        rw [dueCall_log hdue]
        by_cases hlog : log.address = poolAddress <;> simp [hlog]
  · cases h

/-! ### What every run keeps -/

/-- Told once, told for good. -/
def Settles (u v : Option Nat) : Prop := u = none ∨ u = v

/-- The invariant of a start-up. -/
structure Kept (setup : Setup Id Topic σ) (w : World Id Topic σ) : Prop where
  later : ∀ e ∈ setup.history, ∀ log ∈ w.creamEvents.published, e.blockNumber < log.blockNumber
  ordered : w.creamEvents.published.Pairwise fun e e' => e.blockNumber ≤ e'.blockNumber
  settled : (w.firstEvent :: w.creamAppState.waiting).Pairwise Settles
  told : ∀ u ∈ w.firstEvent :: w.creamAppState.waiting, Settles u w.firstPublished
  quiet : w.stage ≠ .listen → w.creamEvents.isSubscribed = false
  known : w.stage ≠ .createPoolManagers → ∃ first, w.firstEvent = some first ∧ first ≠ 0
  late : w.stage ≠ .createPoolManagers → w.creamEvents.missed ≠ []
  early : w.stage = .createPoolManagers → w.allPools = .empty
  calls_eq : w.calls = w.creamEvents.received.filterMap (dueCall setup.events)
  helpers_eq : ∀ poolAddress ∈ w.allPools.keys, w.helpers poolAddress =
    some ((w.creamEvents.received.filterMap (poolCall setup.events poolAddress)).foldl
      setup.pools.update (setup.pools.stateAfter setup.events setup.history poolAddress))

theorem Settles.trans {u v x : Option Nat} (h : Settles u v) (h' : Settles v x) : Settles u x := by
  cases h with
  | inl h => exact Or.inl h
  | inr h => exact h ▸ h'

theorem kept_start : Kept setup start where
  later := fun _ _ _ h => absurd h List.not_mem_nil
  ordered := List.Pairwise.nil
  settled := List.pairwise_singleton _ _
  told := fun _ h => Or.inl (List.mem_singleton.mp h)
  quiet := fun _ => rfl
  known := fun h => absurd rfl h
  late := fun h => absurd rfl h
  early := fun _ => rfl
  calls_eq := rfl
  helpers_eq := fun _ h => absurd h List.not_mem_nil

namespace Kept

/-- What the bot takes for the first event is the first event. -/
theorem firstPublished_eq (h : Kept setup w) {first : Nat} (hfirst : w.firstEvent = some first) :
    w.firstPublished = some first := by
  have htold := h.told w.firstEvent (List.mem_cons_self ..)
  rw [hfirst] at htold
  cases htold with
  | inl hnone => cases hnone
  | inr hsome => exact hsome.symm

/-- Everything on the channel is of the first event's block or a later one. -/
theorem first_le (h : Kept setup w) {first : Nat} (hfirst : w.firstEvent = some first) :
    ∀ log ∈ w.creamEvents.published, first ≤ log.blockNumber := by
  obtain ⟨head, hhead, rfl⟩ := Option.map_eq_some_iff.mp (h.firstPublished_eq hfirst)
  obtain ⟨rest, hpublished⟩ := List.head?_eq_some_iff.mp hhead
  intro log hlog
  have hordered := h.ordered
  rw [hpublished] at hlog hordered
  cases List.mem_cons.mp hlog with
  | inl heq => exact heq ▸ Nat.le_refl _
  | inr hrest => exact (List.pairwise_cons.mp hordered).1 log hrest

theorem publishEvent {log : Log Topic} (h : Kept setup w)
    (hstep : w.publishEvent setup log = some w') : Kept setup w' := by
  obtain ⟨hlater, hordered, rfl⟩ := publishEvent_eq_some hstep
  have hfirst : Settles w.firstPublished ((w.creamEvents.publish log).published.head?.map
      Log.blockNumber) := by
    unfold World.firstPublished
    rw [Channel.published_publish]
    cases w.creamEvents.published with
    | nil => exact Or.inl rfl
    | cons e rest => exact Or.inr rfl
  refine ⟨?_, ?_, h.settled, fun u hu => (h.told u hu).trans hfirst, fun hstage => ?_, h.known,
    fun hstage => ?_, h.early, ?_, ?_⟩
  · intro e he e' he'
    rw [Channel.published_publish, List.mem_append, List.mem_singleton] at he'
    cases he' with
    | inl hold => exact h.later e he e' hold
    | inr hnew => exact hnew ▸ hlater e he
  · rw [Channel.published_publish, List.pairwise_append]
    refine ⟨h.ordered, List.pairwise_singleton _ _, fun e he e' he' => ?_⟩
    rw [List.mem_singleton.mp he']
    exact hordered e he
  · rw [Channel.isSubscribed_publish]
    exact h.quiet hstage
  · rw [Channel.missed_publish]
    split
    · exact h.late hstage
    · exact List.append_ne_nil_of_left_ne_nil (h.late hstage) _
  · rw [Channel.received_publish]
    exact h.calls_eq
  · rw [Channel.received_publish]
    exact h.helpers_eq

theorem publishAppState (h : Kept setup w) : Kept setup w.publishAppState := by
  have hwaiting : (w.creamAppState.publish w.firstPublished).waiting =
      if w.creamAppState.isSubscribed then w.creamAppState.waiting ++ [w.firstPublished]
      else w.creamAppState.waiting := by
    cases w.creamAppState <;> rfl
  refine ⟨h.later, h.ordered, ?_, ?_, h.quiet, h.known, h.late, h.early, h.calls_eq, h.helpers_eq⟩
  · show (w.firstEvent :: (w.creamAppState.publish w.firstPublished).waiting).Pairwise Settles
    rw [hwaiting]
    split
    · rw [← List.cons_append, List.pairwise_append]
      refine ⟨h.settled, List.pairwise_singleton _ _, fun u hu v hv => ?_⟩
      rw [List.mem_singleton.mp hv]
      exact h.told u hu
    · exact h.settled
  · show ∀ u ∈ w.firstEvent :: (w.creamAppState.publish w.firstPublished).waiting,
      Settles u w.firstPublished
    rw [hwaiting]
    intro u hu
    split at hu
    · rw [← List.cons_append, List.mem_append, List.mem_singleton] at hu
      exact hu.elim (h.told u) Or.inr
    · exact h.told u hu

theorem startBootstrap (h : Kept setup w) (hstep : w.startBootstrap = some w') : Kept setup w' := by
  obtain ⟨creamAppState, hsubscribe, rfl⟩ := Option.map_eq_some_iff.mp hstep
  obtain ⟨_, rfl⟩ := Channel.subscribe_eq_some hsubscribe
  refine ⟨h.later, h.ordered, List.pairwise_singleton _ _, fun u hu => ?_, h.quiet, h.known, h.late,
    h.early, h.calls_eq, h.helpers_eq⟩
  rw [List.mem_singleton.mp hu]
  exact h.told _ (List.mem_cons_self ..)

/-- The next state told of is no news once the first event is known. -/
theorem updateBotState (h : Kept setup w) (hstep : w.updateBotState = some w') : Kept setup w' := by
  obtain ⟨⟨told, creamAppState⟩, hreceive, rfl⟩ := Option.map_eq_some_iff.mp hstep
  obtain ⟨_, _, _, hwaiting⟩ := Channel.published_receive hreceive
  have hsettled := h.settled
  have htold := h.told
  rw [hwaiting, List.pairwise_cons] at hsettled
  rw [hwaiting] at htold
  refine ⟨h.later, h.ordered, hsettled.2, fun u hu => htold u (List.mem_cons_of_mem _ hu), h.quiet,
    fun hstage => ?_, h.late, h.early, h.calls_eq, h.helpers_eq⟩
  obtain ⟨first, hfirst, hne⟩ := h.known hstage
  refine ⟨first, ?_, hne⟩
  cases hsettled.1 told (List.mem_cons_self ..) with
  | inl hnone =>
    rw [hfirst] at hnone
    cases hnone
  | inr hsame => exact hsame ▸ hfirst

/-- The bot starts once an event was published, which it has missed by then. -/
theorem createPoolManagers (h : Kept setup w) (hstep : w.createPoolManagers setup = some w') :
    Kept setup w' := by
  obtain ⟨first, hstage, hfirst, hne, rfl⟩ := createPoolManagers_eq_some hstep
  have hquiet : w.creamEvents.isSubscribed = false := h.quiet (by rw [hstage]; decide)
  have hmissed : w.creamEvents.missed ≠ [] := by
    rw [← (Channel.published_unsubscribed hquiet).1]
    intro hempty
    have hpublished := h.firstPublished_eq hfirst
    rw [firstPublished, hempty] at hpublished
    cases hpublished
  exact ⟨h.later, h.ordered, h.settled, h.told, fun _ => hquiet, fun _ => ⟨first, hfirst, hne⟩,
    fun _ => hmissed, nofun, h.calls_eq, h.helpers_eq⟩

theorem loadBlacklists (h : Kept setup w) (hstep : w.loadBlacklists setup = some w') :
    Kept setup w' := by
  obtain ⟨hstage, rfl⟩ := loadBlacklists_eq_some hstep
  have hpast : w.stage ≠ .createPoolManagers := by
    rw [hstage]
    decide
  exact ⟨h.later, h.ordered, h.settled, h.told, fun _ => h.quiet (by rw [hstage]; decide),
    fun _ => h.known hpast, fun _ => h.late hpast, nofun, h.calls_eq, h.helpers_eq⟩

/-- The chain up to the block before the first event is what lies before the publisher. -/
theorem chain_before (h : Kept setup w) {first : Nat} (hfirst : w.firstEvent = some first)
    (hne : first ≠ 0) :
    (w.chain setup).filter (fun e => decide (e.blockNumber ≤ first - 1)) = setup.history := by
  have hle := h.first_le hfirst
  obtain ⟨head, hhead, rfl⟩ := Option.map_eq_some_iff.mp (h.firstPublished_eq hfirst)
  rw [chain, List.filter_append]
  have hbefore : setup.history.filter (fun e => decide (e.blockNumber ≤ head.blockNumber - 1)) =
      setup.history := by
    apply List.filter_eq_self.mpr
    intro e he
    have := h.later e he head (List.mem_of_head? hhead)
    exact decide_eq_true (by omega)
  have hafter : w.creamEvents.published.filter
      (fun e => decide (e.blockNumber ≤ head.blockNumber - 1)) = [] := by
    apply List.filter_eq_nil_iff.mpr
    intro e he hdecide
    have := hle e he
    have := of_decide_eq_true hdecide
    omega
  rw [hbefore, hafter, List.append_nil]

/-- Helpers are built as of the block before the first event. -/
theorem loadPools [DecidableEq Id] (h : Kept setup w) (hstep : w.loadPools setup = some w') :
    Kept setup w' := by
  obtain ⟨first, loaded, hstage, hfirst, _, rfl⟩ := loadPools_eq_some hstep
  have hpast : w.stage ≠ .createPoolManagers := by
    rw [hstage]
    decide
  have hquiet : w.creamEvents.isSubscribed = false := h.quiet (by rw [hstage]; decide)
  have hne : first ≠ 0 := by
    obtain ⟨first', hfirst', hne⟩ := h.known hpast
    rw [hfirst] at hfirst'
    exact Option.some.inj hfirst' ▸ hne
  refine ⟨h.later, h.ordered, h.settled, h.told, fun _ => hquiet, fun _ => h.known hpast,
    fun _ => h.late hpast, nofun, h.calls_eq, fun poolAddress hbuilt => ?_⟩
  show (if poolAddress ∈ loaded.botState.allPools.keys then _ else none) = _
  rw [if_pos hbuilt, h.chain_before hfirst hne, (Channel.published_unsubscribed hquiet).2.1]
  rfl

theorem subscribe (h : Kept setup w) (hstep : w.subscribe = some w') : Kept setup w' := by
  obtain ⟨creamEvents, hstage, hsubscribe, rfl⟩ := subscribe_eq_some hstep
  obtain ⟨hpublished, hmissed, hreceived⟩ := Channel.published_subscribe hsubscribe
  have hpast : w.stage ≠ .createPoolManagers := by
    rw [hstage]
    decide
  refine ⟨?_, ?_, h.settled, ?_, fun hstage => absurd rfl hstage, fun _ => h.known hpast,
    fun _ => ?_, nofun, ?_, ?_⟩
  · exact hpublished ▸ h.later
  · exact hpublished ▸ h.ordered
  · show ∀ u ∈ w.firstEvent :: w.creamAppState.waiting,
      Settles u (creamEvents.published.head?.map Log.blockNumber)
    exact hpublished ▸ h.told
  · exact hmissed ▸ h.late hpast
  · exact hreceived ▸ h.calls_eq
  · exact hreceived ▸ h.helpers_eq

/-- The message loop runs on a known first event. -/
theorem exists_processed (h : Kept setup w) (hstep : w.processMessage setup = some w') :
    ∃ log creamEvents, w.stage = .listen ∧ w.creamEvents.receive = some (log, creamEvents) ∧
      w' = {w with
        creamEvents
        calls := w.calls ++ (dueCall setup.events log).toList
        helpers := fun poolAddress => (w.helpers poolAddress).map fun state =>
          (poolCall setup.events poolAddress log).toList.foldl setup.pools.update state} := by
  obtain ⟨log, creamEvents, hstage, hreceive, _, hw'⟩ := processMessage_eq_some hstep
  obtain ⟨first, hfirst, _⟩ := h.known (by rw [hstage]; decide)
  exact ⟨log, creamEvents, hstage, hreceive, hw' first hfirst⟩

theorem processMessage (h : Kept setup w) (hstep : w.processMessage setup = some w') :
    Kept setup w' := by
  obtain ⟨log, creamEvents, hstage, hreceive, rfl⟩ := h.exists_processed hstep
  obtain ⟨hpublished, hmissed, hreceived, _⟩ := Channel.published_receive hreceive
  refine ⟨?_, ?_, h.settled, ?_, fun hquiet => absurd hstage hquiet, h.known, fun hpast => ?_,
    h.early, ?_, fun poolAddress hbuilt => ?_⟩
  · exact hpublished ▸ h.later
  · exact hpublished ▸ h.ordered
  · show ∀ u ∈ w.firstEvent :: w.creamAppState.waiting,
      Settles u (creamEvents.published.head?.map Log.blockNumber)
    exact hpublished ▸ h.told
  · exact hmissed ▸ h.late hpast
  · show w.calls ++ _ = creamEvents.received.filterMap _
    rw [hreceived, h.calls_eq, List.filterMap_append]
    cases hdue : dueCall setup.events log <;> simp [hdue]
  · show (w.helpers poolAddress).map _ = some ((creamEvents.received.filterMap _).foldl _ _)
    rw [hreceived, h.helpers_eq poolAddress hbuilt, List.filterMap_append, List.foldl_append,
      Option.map_some]
    cases hcall : poolCall setup.events poolAddress log <;> simp [hcall]

theorem step [DecidableEq Id] {action : Action Topic} (h : Kept setup w)
    (hstep : w.step setup action = some w') : Kept setup w' := by
  cases action with
  | publishEvent log => exact h.publishEvent hstep
  | publishAppState => exact Option.some.inj hstep ▸ h.publishAppState
  | startBootstrap => exact h.startBootstrap hstep
  | updateBotState => exact h.updateBotState hstep
  | createPoolManagers => exact h.createPoolManagers hstep
  | loadBlacklists => exact h.loadBlacklists hstep
  | loadPools => exact h.loadPools hstep
  | subscribe => exact h.subscribe hstep
  | processMessage => exact h.processMessage hstep

theorem run [DecidableEq Id] {actions : List (Action Topic)} (h : Kept setup w)
    (hrun : w.run setup actions = some w') : Kept setup w' := by
  induction actions generalizing w with
  | nil => exact Option.some.inj hrun ▸ h
  | cons action rest ih =>
    obtain ⟨next, hstep, hrest⟩ := Option.bind_eq_some_iff.mp hrun
    exact ih (h.step hstep) hrest

end Kept

/-! ### What is missed -/

section Runs
variable [DecidableEq Id]

/-- The logs that are published before the bot subscribes. -/
def beforeSubscription : List (Action Topic) → List (Log Topic)
  | [] => []
  | .publishEvent log :: rest => log :: beforeSubscription rest
  | .subscribe :: _ => []
  | _ :: rest => beforeSubscription rest

/-- What an action does to `cream_events`. -/
def Moves (c c' : Channel (Log Topic)) : Action Topic → Prop
  | .publishEvent log => c' = c.publish log
  | .subscribe => c.subscribe = some c'
  | .processMessage => ∃ log, c.receive = some (log, c')
  | _ => c' = c

theorem moves_step {action : Action Topic} (h : w.step setup action = some w') :
    Moves w.creamEvents w'.creamEvents action := by
  cases action with
  | publishEvent log =>
    obtain ⟨_, _, rfl⟩ := publishEvent_eq_some h
    rfl
  | publishAppState => exact Option.some.inj h ▸ rfl
  | startBootstrap =>
    obtain ⟨_, _, rfl⟩ := Option.map_eq_some_iff.mp h
    rfl
  | updateBotState =>
    obtain ⟨_, _, rfl⟩ := Option.map_eq_some_iff.mp h
    rfl
  | createPoolManagers =>
    obtain ⟨_, _, _, _, rfl⟩ := createPoolManagers_eq_some h
    rfl
  | loadBlacklists =>
    obtain ⟨_, rfl⟩ := loadBlacklists_eq_some h
    rfl
  | loadPools =>
    obtain ⟨_, _, _, _, _, rfl⟩ := loadPools_eq_some h
    rfl
  | subscribe =>
    obtain ⟨creamEvents, _, hsubscribe, rfl⟩ := subscribe_eq_some h
    exact hsubscribe
  | processMessage =>
    obtain ⟨log, _, _, hreceive, rfl, _⟩ := processMessage_eq_some h
    exact ⟨log, hreceive⟩

/-- The bot misses just what is published before it subscribes. -/
theorem missed_run {actions : List (Action Topic)} (h : w.run setup actions = some w') :
    w'.creamEvents.missed = w.creamEvents.missed ++
      if w.creamEvents.isSubscribed then [] else beforeSubscription actions := by
  induction actions generalizing w with
  | nil =>
    rw [← Option.some.inj h, beforeSubscription, ite_self, List.append_nil]
  | cons action rest ih =>
    obtain ⟨next, hstep, hrest⟩ := Option.bind_eq_some_iff.mp h
    have hmoves := moves_step hstep
    rw [ih hrest]
    cases action with
    | publishEvent log =>
      rw [show next.creamEvents = _ from hmoves, Channel.missed_publish, Channel.isSubscribed_publish, beforeSubscription]
      cases w.creamEvents.isSubscribed <;> simp
    | subscribe =>
      obtain ⟨hquiet, hnext⟩ := Channel.subscribe_eq_some hmoves
      rw [hnext, hquiet]
      rfl
    | processMessage =>
      obtain ⟨log, hreceive⟩ := hmoves
      obtain ⟨waiting, hw, hnext⟩ := Channel.receive_eq_some hreceive
      rw [hnext, hw]
      rfl
    | _ =>
      rw [show next.creamEvents = w.creamEvents from hmoves]
      rfl

/-- Process what is waiting. -/
def settle (setup : Setup Id Topic σ) (w : World Id Topic σ) : Option (World Id Topic σ) :=
  w.run setup (List.replicate w.creamEvents.waiting.length .processMessage)

/-- What is waiting can be processed, and this touches nothing else. -/
theorem Kept.settle (h : Kept setup w) : ∃ w', w.settle setup = some w' ∧ Kept setup w' ∧
    w'.creamEvents.waiting = [] ∧ w'.creamEvents.published = w.creamEvents.published ∧
    w'.creamEvents.missed = w.creamEvents.missed ∧ w'.allPools = w.allPools := by
  unfold World.settle
  generalize hwaiting : w.creamEvents.waiting = waiting
  induction waiting generalizing w with
  | nil => exact ⟨w, rfl, h, hwaiting, rfl, rfl, rfl⟩
  | cons log rest ih =>
    have hstage : w.stage = .listen := by
      refine Decidable.by_contra fun hne => ?_
      rw [(Channel.published_unsubscribed (h.quiet hne)).2.2] at hwaiting
      cases hwaiting
    obtain ⟨creamEvents, hreceive⟩ := Channel.exists_receive hwaiting
    obtain ⟨next, hnext⟩ : ∃ next, w.processMessage setup = some next := by
      rw [World.processMessage, if_pos hstage, hreceive]
      exact ⟨_, rfl⟩
    have hkept := h.processMessage hnext
    obtain ⟨log', creamEvents', _, hreceive', rfl⟩ := h.exists_processed hnext
    obtain ⟨rfl, rfl⟩ := Prod.mk.inj (Option.some.inj (hreceive.symm.trans hreceive'))
    obtain ⟨hpublished, hmissed, _, hcons⟩ := Channel.published_receive hreceive
    rw [hwaiting] at hcons
    obtain ⟨w', hrun, hkept', hdone, hpublished', hmissed', hpools⟩ :=
      ih hkept (List.cons.inj hcons).2.symm
    refine ⟨w', ?_, hkept', hdone, hpublished'.trans hpublished, hmissed'.trans hmissed, hpools⟩
    show (w.processMessage setup).bind _ = _
    rw [hnext]
    exact hrun

/-! ### Following a pool -/

/-- Once what is waiting is processed, the handler calls for a pool are those that its
logs are due from the block of the first event on. -/
def Followed (setup : Setup Id Topic σ) (w : World Id Topic σ) (poolAddress : Address) : Prop :=
  ∃ first w', w.firstEvent = some first ∧ w.settle setup = some w' ∧
    w'.calls.filter (fun call => decide (call.2.address = poolAddress)) =
      (w'.creamEvents.published.filter fun log => decide (first ≤ log.blockNumber)).filterMap
        (poolCall setup.events poolAddress)

/-- Once what is waiting is processed, the helper of a pool is in the state of the pool
on the chain. -/
def InStep (setup : Setup Id Topic σ) (w : World Id Topic σ) (poolAddress : Address) : Prop :=
  ∃ w', w.settle setup = some w' ∧
    w'.helpers poolAddress = some (setup.pools.stateAfter setup.events (w'.chain setup) poolAddress)

variable {poolAddress : Address}

omit [DecidableEq Id] in
theorem Kept.past (h : Kept setup w) (hbuilt : poolAddress ∈ w.allPools.keys) :
    w.stage ≠ .createPoolManagers := by
  intro hstage
  rw [h.early hstage] at hbuilt
  cases hbuilt

/-- A pool is followed exactly if no log of it was missed. -/
theorem Kept.followed_iff (h : Kept setup w) (hbuilt : poolAddress ∈ w.allPools.keys) :
    Followed setup w poolAddress ↔
      ∀ log ∈ w.creamEvents.missed, poolCall setup.events poolAddress log = none := by
  obtain ⟨w', hsettle, hkept, hdone, hpublished, hmissed, hpools⟩ := h.settle
  obtain ⟨first, hfirst, _⟩ := h.known (h.past hbuilt)
  have hall : w'.creamEvents.published.filter (fun log => decide (first ≤ log.blockNumber)) =
      w'.creamEvents.published := by
    apply List.filter_eq_self.mpr
    intro log hlog
    rw [hpublished] at hlog
    exact decide_eq_true (h.first_le hfirst log hlog)
  have hcalls : w'.calls.filter (fun call => decide (call.2.address = poolAddress)) =
      (w'.creamEvents.received ++ w'.creamEvents.waiting).filterMap
        (poolCall setup.events poolAddress) := by
    rw [hkept.calls_eq, filter_dueCalls, hdone, List.append_nil]
  have hiff := Channel.delivered_eq_published (poolCall setup.events poolAddress) w'.creamEvents
  rw [← hcalls, hmissed] at hiff
  rw [← hiff]
  refine ⟨fun ⟨first', w'', hfirst', hsettle', heq⟩ => ?_, fun heq => ⟨first, w', hfirst, hsettle, ?_⟩⟩
  · rw [hfirst] at hfirst'
    rw [hsettle] at hsettle'
    cases hfirst'
    cases hsettle'
    rw [hall] at heq
    exact heq
  · rw [hall]
    exact heq

/-- The helper of a pool that is followed keeps in step with the chain. -/
theorem Kept.inStep (h : Kept setup w) (hbuilt : poolAddress ∈ w.allPools.keys)
    (hfollowed : Followed setup w poolAddress) : InStep setup w poolAddress := by
  have hnone := (h.followed_iff hbuilt).mp hfollowed
  obtain ⟨w', hsettle, hkept, hdone, hpublished, hmissed, hpools⟩ := h.settle
  refine ⟨w', hsettle, ?_⟩
  rw [← hmissed] at hnone
  have hdelivered := (Channel.delivered_eq_published (poolCall setup.events poolAddress)
    w'.creamEvents).mpr hnone
  rw [hdone, List.append_nil] at hdelivered
  rw [hkept.helpers_eq poolAddress (hpools ▸ hbuilt), chain, PoolModel.stateAfter,
    PoolModel.stateAfter, List.filterMap_append, List.foldl_append, hdelivered]

omit [DecidableEq Id] in
/-- The log that tells the bot to start is missed. -/
theorem Kept.first_missed (h : Kept setup w) {first : Nat} (hfirst : w.firstEvent = some first)
    (hpast : w.stage ≠ .createPoolManagers) :
    ∃ log rest, w.creamEvents.missed = log :: rest ∧ log.blockNumber = first := by
  obtain ⟨log, rest, hmissed⟩ := List.exists_cons_of_ne_nil (h.late hpast)
  refine ⟨log, rest, hmissed, ?_⟩
  have hpublished := h.firstPublished_eq hfirst
  rw [firstPublished, Channel.published, hmissed] at hpublished
  exact Option.some.inj hpublished

theorem missed_eq {actions : List (Action Topic)} (hrun : start.run setup actions = some w) :
    w.creamEvents.missed = beforeSubscription actions := missed_run hrun

/-- **A pool is followed exactly if none of its logs is published before the
subscription**, and then its helper keeps in step with the chain. -/
theorem no_update_lost_iff (setup : Setup Id Topic σ) {actions : List (Action Topic)}
    {w : World Id Topic σ} (hrun : start.run setup actions = some w) {poolAddress : Address}
    (hbuilt : poolAddress ∈ w.allPools.keys) :
    (Followed setup w poolAddress ↔
      ∀ log ∈ beforeSubscription actions, poolCall setup.events poolAddress log = none) ∧
    ((∀ log ∈ beforeSubscription actions, poolCall setup.events poolAddress log = none) →
      InStep setup w poolAddress) := by
  have hkept := kept_start.run hrun
  have hiff := hkept.followed_iff hbuilt
  rw [missed_eq hrun] at hiff
  exact ⟨hiff, fun hnone => hkept.inStep hbuilt (hiff.mpr hnone)⟩

/-- The first log that is published is always missed, so its pool is never followed. -/
theorem first_update_lost {actions : List (Action Topic)} (hrun : start.run setup actions = some w)
    (hbuilt : poolAddress ∈ w.allPools.keys) :
    ∃ log rest, beforeSubscription actions = log :: rest ∧ w.firstEvent = some log.blockNumber ∧
      (poolCall setup.events poolAddress log ≠ none → ¬ Followed setup w poolAddress) := by
  have hkept := kept_start.run hrun
  obtain ⟨first, hfirst, _⟩ := hkept.known (hkept.past hbuilt)
  obtain ⟨log, rest, hmissed, hblock⟩ := hkept.first_missed hfirst (hkept.past hbuilt)
  refine ⟨log, rest, (missed_eq hrun).symm.trans hmissed, hblock ▸ hfirst, fun hcall hfollowed => ?_⟩
  exact hcall ((hkept.followed_iff hbuilt).mp hfollowed log (hmissed ▸ List.mem_cons_self ..))

end Runs

/-! ### Two start-ups -/

/-- Two V2 pools on one arb; a state counts the updates. -/
def twoPools : Setup (List UInt8) String Nat where
  keccak := id
  pools := ⟨fun _ => 0, fun state _ => state + 1⟩
  history := []
  degenbot := ⟨fun _ => manager, fun _ _ => manager⟩
  chainData := stateBeforeLoading.chainData
  blacklists := stateBeforeLoading.blacklists
  setOrder := id
  lpFiles := [[v2Pool 1 8, v2Pool 2 8]]
  arbPaths2 := .ofList [(arbOfTwo.id, arbOfTwo)]
  arbPaths3 := .empty

def syncOf (poolAddress : Address) (blockNumber : Nat) : Log String :=
  ⟨poolAddress, blockNumber, ["Sync(uint112,uint112)"], []⟩

/-- The bot starts on the first log it is told of. -/
def startOn (log : Log String) : List (Action String) :=
  [.startBootstrap, .publishEvent log, .publishAppState, .updateBotState, .createPoolManagers,
    .loadBlacklists, .loadPools, .subscribe]

/-- A Sync of pool 1 starts the bot and is lost. -/
theorem first_sync_lost : ∃ w, start.run twoPools (startOn (syncOf (.fill 1) 100)) = some w ∧
    .fill 1 ∈ w.allPools.keys ∧ w.firstEvent = some 100 ∧
    ¬ Followed twoPools w (.fill 1) ∧ ¬ InStep twoPools w (.fill 1) := by
  have hlost : (start.run twoPools (startOn (syncOf (.fill 1) 100))).any (fun w =>
      decide (.fill 1 ∈ w.allPools.keys ∧ w.firstEvent = some 100 ∧ w.creamEvents.waiting = [] ∧
        w.creamEvents.published = [syncOf (.fill 1) 100] ∧ w.calls = [] ∧
        w.helpers (.fill 1) = some 0)) = true := by decide
  obtain ⟨w, hrun, hfacts⟩ := (Option.any_eq_true _ _).mp hlost
  obtain ⟨hbuilt, hfirst, hwaiting, hpublished, hcalls, hstate⟩ := of_decide_eq_true hfacts
  have hsettle : w.settle twoPools = some w := by
    rw [settle, hwaiting]
    rfl
  refine ⟨w, hrun, hbuilt, hfirst, fun ⟨first, w', hfirst', hsettle', heq⟩ => ?_,
    fun ⟨w', hsettle', heq⟩ => ?_⟩
  · rw [hfirst] at hfirst'
    rw [hsettle] at hsettle'
    cases hfirst'
    cases hsettle'
    rw [hcalls, hpublished] at heq
    revert heq
    decide
  · rw [hsettle] at hsettle'
    cases hsettle'
    rw [hstate, chain, hpublished] at heq
    revert heq
    decide

/-- A log of another pool starts the bot, and pool 1 is followed. -/
theorem no_update_lost_iff_other_first :
    ∃ w, start.run twoPools (startOn (syncOf (.fill 7) 100) ++
        [.publishEvent (syncOf (.fill 1) 100), .processMessage]) = some w ∧
      .fill 1 ∈ w.allPools.keys ∧ Followed twoPools w (.fill 1) ∧ InStep twoPools w (.fill 1) := by
  have hbuilt : (start.run twoPools (startOn (syncOf (.fill 7) 100) ++
      [.publishEvent (syncOf (.fill 1) 100), .processMessage])).any (fun w =>
        decide (.fill 1 ∈ w.allPools.keys)) = true := by decide
  obtain ⟨w, hrun, hmem⟩ := (Option.any_eq_true _ _).mp hbuilt
  have hnone : ∀ log ∈ beforeSubscription (startOn (syncOf (.fill 7) 100) ++
      [.publishEvent (syncOf (.fill 1) 100), .processMessage]),
        poolCall twoPools.events (.fill 1) log = none := by decide
  have h := no_update_lost_iff twoPools hrun (of_decide_eq_true hmem)
  exact ⟨w, hrun, of_decide_eq_true hmem, h.1.mpr hnone, h.2 hnone⟩

end World
end CreamBots.App
