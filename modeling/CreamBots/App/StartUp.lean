import CreamBots.App.LiveStates

/-! The managers that the running bot starts with.

`load_pools` asks the managers for the pools that it trades through, and the handlers then
go on with the same managers. What a manager answers depends on what has been made before,
and that is in the registry of helpers, in order (`HandlerState.made`); so degenbot as the
handlers see it gives the managers that `load_pools` talks to (`HelperCalls.managerClasses`).
When it returns, the managers track just what is in the registry (`tracks_loaded`), and from
then on the helpers follow the logs (`started_bot_follows_logs`). -/
namespace CreamBots.App
open Data Builders

variable {Topic σ τ Id : Type}

/-! ### The managers, by the registry -/

/-- What the manager of a factory tracks. -/
def HandlerState.trackedBy (s : HandlerState σ τ) (factory : Address) : TrackedPools :=
  (s.poolManagers.get? factory).getD .empty

/-- The manager of a factory is asked for a helper in the state after a block. -/
def HandlerState.askFor (degenbot : HelperCalls σ τ) (s : HandlerState σ τ) (factory poolAddress : Address)
    (stateBlock : Nat) : Outcome σ τ Pool :=
  s.getPool degenbot factory (s.trackedBy factory) poolAddress (some (stateBlock : Int))

section Registry
variable (degenbot : HelperCalls σ τ) (factoryOf : Address → Address)

/-- The helpers of these pools have been made, one after the other. -/
def HandlerState.made (s : HandlerState σ τ) (stateBlock : Nat) (poolAddresses : List Address) :
    HandlerState σ τ :=
  poolAddresses.foldl (fun s poolAddress =>
    (s.askFor degenbot (factoryOf poolAddress) poolAddress stateBlock).2) s

/-- A manager that started in `s`. The fee that it is told is the pool's own. -/
def HelperCalls.poolManager (s : HandlerState σ τ) (factory : Address) : PoolManager where
  getPool allPools poolAddress stateBlock _ :=
    match ((s.made degenbot factoryOf stateBlock allPools.keys).askFor degenbot factory poolAddress
      stateBlock).1 with
    | .ok pool => (.ok pool, allPools.set poolAddress pool)
    | .error e => (.error e, allPools)

def HelperCalls.managerClasses (s : HandlerState σ τ) : ManagerClasses :=
  ⟨degenbot.poolManager factoryOf s, fun factory _ => degenbot.poolManager factoryOf s factory⟩

end Registry

/-- The managers that `create_pool_managers` makes; they track nothing yet. -/
def newManagers (chainData : ChainData) (helpers : Heap σ) (snapshot : τ) : HandlerState σ τ :=
  ⟨.ofList ((chainData.v2Factories.values ++ chainData.v3Factories.values).map fun factory =>
    (factory, .empty)), helpers, snapshot, []⟩

/-- A helper that `get_pool` has built from the state after the block. -/
def HelperCalls.Builds (degenbot : HelperCalls σ τ) (factoryOf : Address → Address) (stateBlock : Nat)
    (poolAddress : Address) (helper : σ) : Prop :=
  ∃ (tracked : TrackedPools) (helpers : Heap σ) (pool : Pool) (after : TrackedPools × Heap σ),
    tracked.get? poolAddress = none ∧
      degenbot.getPool (factoryOf poolAddress) tracked helpers poolAddress (some (stateBlock : Int)) =
        (.ok pool, after) ∧
      after.2.get pool.object = helper

/-- The managers track what is in the registry, each helper as it was built. -/
structure Tracks (degenbot : HelperCalls σ τ) (factoryOf : Address → Address) (stateBlock : Nat)
    (factories : List Address) (allPools : AllPools) (s : HandlerState σ τ) : Prop where
  registered : Registered factoryOf s.poolManagers
  own : OwnObjects factoryOf s
  factories : ∀ factory ∈ factories, factory ∈ s.poolManagers.keys
  tracked : ∀ poolAddress, helperOf factoryOf s.poolManagers poolAddress = allPools.get? poolAddress
  built : ∀ poolAddress pool, allPools.get? poolAddress = some pool →
    degenbot.Builds factoryOf stateBlock poolAddress (s.helpers.get pool.object)

section Tracking
variable {degenbot : HelperCalls σ τ} {factoryOf : Address → Address} {stateBlock : Nat}
  {factories : List Address} {allPools : AllPools} {s : HandlerState σ τ} {factory : Address}

theorem HandlerState.made_concat (poolAddresses : List Address) (poolAddress : Address) :
    s.made degenbot factoryOf stateBlock (poolAddresses ++ [poolAddress]) =
      ((s.made degenbot factoryOf stateBlock poolAddresses).askFor degenbot (factoryOf poolAddress)
        poolAddress stateBlock).2 := by
  rw [made, List.foldl_append]
  rfl

/-- A manager that is asked for a pool. It raises, has the helper, or builds it. -/
theorem HelperCalls.Lawful.askFor_cases (hlawful : degenbot.Lawful factoryOf)
    (h : Tracks degenbot factoryOf stateBlock factories allPools s) (hfactory : factory ∈ factories)
    (poolAddress : Address) :
    (∃ e, s.askFor degenbot factory poolAddress stateBlock = (.error e, s)) ∨
      (∃ pool, allPools.get? poolAddress = some pool ∧
        s.askFor degenbot factory poolAddress stateBlock = (.ok pool, s)) ∨
      allPools.get? poolAddress = none ∧ factoryOf poolAddress = factory ∧
        ∃ pool after, s.askFor degenbot factory poolAddress stateBlock = (.ok pool, after) ∧
          Tracks degenbot factoryOf stateBlock factories (allPools.set poolAddress pool) after := by
  obtain ⟨tracked, hmanager⟩ := Dict.mem_keys.mp (h.factories factory hfactory)
  have hask : s.askFor degenbot factory poolAddress stateBlock =
      s.getPool degenbot factory tracked poolAddress (some (stateBlock : Int)) := by
    rw [HandlerState.askFor, HandlerState.trackedBy, hmanager, Option.getD_some]
  rw [hask]
  cases hpool : tracked.get? poolAddress with
  | some pool =>
    obtain ⟨rfl, _⟩ := h.registered factory tracked hmanager poolAddress pool hpool
    refine .inr (.inl ⟨pool, ?_, getPool_of_unchanged hmanager (hlawful.managed hpool)⟩)
    rw [← h.tracked]
    exact helperOf_eq_some.mpr ⟨tracked, hmanager, hpool⟩
  | none =>
    by_cases hown : factoryOf poolAddress = factory
    · subst hown
      rcases hlawful.built tracked s.helpers poolAddress (some (stateBlock : Int)) hpool with
        ⟨e, he⟩ | ⟨helper, hbuilt⟩
      · exact .inl ⟨e, getPool_of_unchanged hmanager he⟩
      · have hnew : allPools.get? poolAddress = none := by
          rw [← h.tracked, helperOf, hmanager]
          exact hpool
        refine .inr (.inr ⟨hnew, rfl, ⟨poolAddress, s.helpers.next⟩,
          s.register (factoryOf poolAddress) tracked poolAddress helper, ?_, ?_⟩)
        · rw [HandlerState.getPool, hbuilt]
          rfl
        · refine ⟨h.registered.register helper hmanager, h.own.register helper hmanager,
            fun f hf => ?_, fun a => ?_, fun a pool hget => ?_⟩
          · exact Dict.mem_keys_set.mpr (.inr (h.factories f hf))
          · rw [helperOf_register helper hmanager, Dict.get?_set, h.tracked]
          · rw [Dict.get?_set] at hget
            split at hget
            · rename_i haddress
              cases hget
              subst haddress
              refine ⟨tracked, s.helpers, _, _, hpool, hbuilt, ?_⟩
              rfl
            · have hmade := h.own.made a pool ((h.tracked a).trans hget)
              have hkept : (s.register (factoryOf poolAddress) tracked poolAddress helper).helpers.get
                  pool.object = s.helpers.get pool.object := Heap.get_alloc_of_lt hmade helper
              rw [hkept]
              exact h.built a pool hget
    · exact .inl ⟨_, getPool_of_unchanged hmanager (hlawful.foreign hpool hown)⟩

end Tracking

/-! ### While load_pools works -/

section Loading
variable {degenbot : HelperCalls σ τ} {factoryOf : Address → Address} {factories : List Address}
  {s : HandlerState σ τ} {state : BotState Id} {allPools : AllPools}

/-- What has been made when the registry is this. -/
def Keeping (degenbot : HelperCalls σ τ) (factoryOf : Address → Address) (stateBlock : Nat)
    (factories : List Address) (s : HandlerState σ τ) (allPools : AllPools) : Prop :=
  Tracks degenbot factoryOf stateBlock factories allPools
    (s.made degenbot factoryOf stateBlock allPools.keys)

theorem Keeping.getPool {stateBlock : Nat} (hlawful : degenbot.Lawful factoryOf)
    (h : Keeping degenbot factoryOf stateBlock factories s allPools) {factory : Address}
    (hfactory : factory ∈ factories) (poolAddress : Address) (fee : Option Nat) :
    Keeping degenbot factoryOf stateBlock factories s
      ((degenbot.poolManager factoryOf s factory).getPool allPools poolAddress stateBlock fee).2 := by
  rw [HelperCalls.poolManager]
  rcases hlawful.askFor_cases h hfactory poolAddress with
    ⟨e, he⟩ | ⟨pool, hget, hpool⟩ | ⟨hnew, hown, pool, after, hpool, hafter⟩
  · simp only [he]
    exact h
  · simp only [hpool, Dict.set_of_get? hget]
    exact h
  · simp only [hpool]
    have hkeys : (allPools.set poolAddress pool).keys = allPools.keys ++ [poolAddress] := by
      rw [Dict.keys, Dict.items_set_of_not_mem (Dict.get?_eq_none.mp hnew), List.map_append]
      rfl
    rw [Keeping, hkeys, HandlerState.made_concat, hown, hpool]
    exact hafter

/-- Every manager that `create_pool_managers` makes is one of these, of a known factory. -/
theorem of_createPoolManagers {chainData : ChainData} {firstEvent : Nat} {factory : Address}
    {manager : PoolManager} (h : (createPoolManagers (degenbot.managerClasses factoryOf s) chainData
      firstEvent).get? factory = some manager) :
    manager = degenbot.poolManager factoryOf s factory ∧
      factory ∈ chainData.v2Factories.values ++ chainData.v3Factories.values := by
  rw [createPoolManagers, Dict.get?_ofList] at h
  have hmem := Dict.lastValue?_mem h
  simp only [List.mem_append, List.mem_map, Prod.mk.injEq] at hmem
  rcases hmem with ⟨f, hf, rfl, rfl⟩ | ⟨f, hf, rfl, rfl⟩
  · exact ⟨rfl, List.mem_append_left _ hf⟩
  · exact ⟨rfl, List.mem_append_right _ hf⟩

variable {chainData : ChainData} {firstEvent : Nat}

theorem Keeping.createPoolHelper (hlawful : degenbot.Lawful factoryOf)
    (hmanagers : state.poolManagers =
      createPoolManagers (degenbot.managerClasses factoryOf s) state.chainData state.firstEvent)
    (h : Keeping degenbot factoryOf (state.firstEvent - 1)
      (state.chainData.v2Factories.values ++ state.chainData.v3Factories.values) s allPools)
    (poolAddress : Address) (poolData : PoolRecord) :
    Keeping degenbot factoryOf (state.firstEvent - 1)
      (state.chainData.v2Factories.values ++ state.chainData.v3Factories.values) s
      (createPoolHelper state allPools poolAddress poolData).2 := by
  have hask : ∀ {factories : Dict String Address} {manager fee},
      managerOf state factories poolData.exchange = .ok manager →
      Keeping degenbot factoryOf (state.firstEvent - 1)
        (state.chainData.v2Factories.values ++ state.chainData.v3Factories.values) s
        (exceptManagerError (manager.getPool allPools poolAddress (state.firstEvent - 1) fee)).2 := by
    intro factories manager fee hof
    obtain ⟨factory, hget⟩ : ∃ factory, state.poolManagers.get? factory = some manager := by
      rw [managerOf] at hof
      split at hof
      · cases hof
      · split at hof
        · cases hof
        · cases hof
          exact ⟨_, ‹_›⟩
    rw [hmanagers] at hget
    obtain ⟨rfl, hfactory⟩ := of_createPoolManagers hget
    have hkept := h.getPool hlawful hfactory poolAddress fee
    rcases hgot : (degenbot.poolManager factoryOf s factory).getPool allPools poolAddress
      (state.firstEvent - 1) fee with ⟨e | pool, after⟩
    · rw [hgot] at hkept
      cases e <;> exact hkept
    · rw [hgot] at hkept
      exact hkept
  rw [App.createPoolHelper]
  split
  · cases hof : managerOf state state.chainData.v2Factories poolData.exchange with
    | error e => exact h
    | ok manager => exact hask hof
  · cases hof : managerOf state state.chainData.v3Factories poolData.exchange with
    | error e => exact h
    | ok manager =>
      cases hfee : poolData.fee with
      | none => exact h
      | some fee => exact hask hof
  · exact h

/-- Before the first helper. -/
theorem keeping_empty (stateBlock : Nat) (chainData : ChainData) (helpers : Heap σ) (snapshot : τ) :
    Keeping degenbot factoryOf stateBlock
      (chainData.v2Factories.values ++ chainData.v3Factories.values)
      (newManagers chainData helpers snapshot) Dict.empty := by
  have hempty : ∀ factory tracked, (newManagers chainData helpers snapshot).poolManagers.get? factory =
      some tracked → tracked = Dict.empty := by
    intro factory tracked hget
    rw [newManagers, Dict.get?_ofList] at hget
    obtain ⟨_, _, he⟩ := List.mem_map.mp (Dict.lastValue?_mem hget)
    exact (Prod.mk.inj he).2.symm
  have hnone : ∀ poolAddress, helperOf factoryOf
      (newManagers chainData helpers snapshot).poolManagers poolAddress = none := by
    intro poolAddress
    rw [helperOf_eq_none]
    intro tracked hget
    rw [hempty _ _ hget]
    rfl
  refine ⟨fun factory tracked hget poolAddress pool hpool => ?_, ⟨fun a pool hpool => ?_,
    fun a a' pool pool' hpool => ?_⟩, fun factory hfactory => ?_, hnone, nofun⟩
  · rw [hempty factory tracked hget] at hpool
    cases hpool
  · cases (hnone a).symm.trans hpool
  · cases (hnone a).symm.trans hpool
  · obtain ⟨tracked, htracked⟩ := Dict.lastValue?_isSome
      (List.mem_map_of_mem (f := fun factory => (factory, (Dict.empty : TrackedPools))) hfactory)
    exact Dict.mem_keys.mpr ⟨tracked, (Dict.get?_ofList _ _).trans htracked⟩

variable [DecidableEq Id] {lpFiles : List (List PoolRecord)} {arbPaths2 arbPaths3 : Dict Id (ArbPath Id)}
  {setOrder : List Address → List Address} {blacklists : Blacklists Id} {loaded : Loaded Id}
  {helpers : Heap σ} {snapshot : τ}

/-- When `load_pools` returns, the managers track what is in the registry. -/
theorem tracks_loaded (hlawful : degenbot.Lawful factoryOf)
    (hmanagers : state.poolManagers = createPoolManagers (degenbot.managerClasses factoryOf
      (newManagers state.chainData helpers snapshot)) state.chainData state.firstEvent)
    (hempty : state.allPools = Dict.empty)
    (h : loadPools setOrder state lpFiles arbPaths2 arbPaths3 = .ok loaded) :
    Keeping degenbot factoryOf (state.firstEvent - 1)
      (state.chainData.v2Factories.values ++ state.chainData.v3Factories.values)
      (newManagers state.chainData helpers snapshot) loaded.botState.allPools := by
  obtain ⟨_, hcreated, _⟩ := loadPools_eq_ok h
  rw [createPoolHelpers, hempty] at hcreated
  refine foldlM_keeps ?_ (keeping_empty (state.firstEvent - 1) state.chainData helpers snapshot) hcreated
  intro allPools poolAddress after hkeeping hround
  cases hdata : loaded.liquidityPoolData.get? poolAddress with
  | none =>
    rw [hdata] at hround
    cases hround
  | some poolData =>
    rw [hdata] at hround
    have hkept := hkeeping.createPoolHelper hlawful hmanagers poolAddress poolData
    rcases hhelper : App.createPoolHelper state allPools poolAddress poolData with ⟨e | helper, next⟩
    · simp only [hhelper] at hround
      cases hround
    · simp only [hhelper] at hround hkept
      cases hround
      exact hkept

/-- The pools of the cycles have the managed helpers, as they were built. -/
theorem loaded_pool {stateBlock : Nat} (h : Tracks degenbot factoryOf stateBlock factories
      loaded.botState.allPools s)
    (hloaded : loadPools setOrder state lpFiles arbPaths2 arbPaths3 = .ok loaded)
    (hempty : state.allArbs = Dict.empty) {arb : UniswapLpCycle Id}
    (harb : arb ∈ loaded.botState.allArbs.cycles) {pool : Pool} (hpool : pool ∈ arb.swapPools) :
    Managed s.poolManagers pool ∧
      degenbot.Builds factoryOf stateBlock pool.address (s.helpers.get pool.object) := by
  obtain ⟨poolAddress, hget⟩ := mem_swapPools_of_loaded hloaded hempty harb hpool
  have hhelper := (h.tracked poolAddress).trans hget
  have haddress := h.registered.address hhelper
  rw [h.registered.managed_iff, haddress]
  exact ⟨hhelper, h.built poolAddress pool hget⟩

/-- From there the bot runs, and the helpers of the cycles see what comes. -/
theorem exists_started [DecidableEq Topic] {stateBlock : Nat} (h : Tracks degenbot factoryOf stateBlock
      factories loaded.botState.allPools s)
    (hloaded : loadPools setOrder state lpFiles arbPaths2 arbPaths3 = .ok loaded)
    (hempty : state.allArbs = Dict.empty) (abi : EthAbi Topic) (events : Events Topic)
    (firstEvent : Nat) (missed : List (Log Topic)) (steps : List (LiveBot.Step Topic σ τ Id)) :
    let w : LiveBot Topic σ τ Id := .start missed firstEvent s.poolManagers s.helpers s.snapshot
    w.trading.Working loaded.botState.allArbs ∧ ∃ last : LiveBot Topic σ τ Id,
      w.after abi events loaded.botState.allArbs steps = .ok last ∧
      ∀ arb ∈ loaded.botState.allArbs.cycles, ∀ pool ∈ arb.swapPools,
        Sees factoryOf abi pool.address pool (s.helpers.get pool.object) [] w.trading.pipeline.handlers ∧
          degenbot.Builds factoryOf stateBlock pool.address (s.helpers.get pool.object) := by
  intro w
  have hconnected : Connected loaded.botState.allArbs s := fun arb harb pool hpool =>
    (loaded_pool h hloaded hempty harb hpool).1
  have hworking : w.trading.Working loaded.botState.allArbs := Trading.working_start ..
  obtain ⟨last, hlast, _⟩ := LiveBot.exists_after abi events steps hworking
  refine ⟨hworking, last, hlast, fun arb harb pool hpool => ⟨?_, ?_⟩⟩
  · exact LiveBot.sees_start abi missed firstEvent h.registered h.own hconnected harb hpool
  · exact (loaded_pool h hloaded hempty harb hpool).2

end Loading

/-- **A bot that is started follows the logs of its pools.** Once `load_pools` has returned, in
any interleaving of the running bot nothing is raised, what is published from the
subscription on is received in order, and the handlers are called on just what is due of it,
if no app state unsets the first event. The helper that a cycle has of a pool was built from
the state after the block before the first event and holds what the calls on the logs of the
pool have made of it: all of them, or those up to the first Burn that took it away. -/
theorem started_bot_follows_logs [DecidableEq Topic] [DecidableEq Id] (degenbot : HelperCalls σ τ)
    (factoryOf : Address → Address) (hlawful : degenbot.Lawful factoryOf) (state : BotState Id)
    (helpers : Heap σ) (snapshot : τ)
    (hmanagers : state.poolManagers = createPoolManagers (degenbot.managerClasses factoryOf
      (newManagers state.chainData helpers snapshot)) state.chainData state.firstEvent)
    (hpools : state.allPools = Dict.empty) (harbs : state.allArbs = Dict.empty)
    (setOrder : List Address → List Address) (lpFiles : List (List PoolRecord))
    (arbPaths2 arbPaths3 : Dict Id (ArbPath Id)) (loaded : Loaded Id)
    (hloaded : loadPools setOrder state lpFiles arbPaths2 arbPaths3 = .ok loaded)
    (abi : EthAbi Topic) (events : Events Topic) (missed : List (Log Topic))
    (steps : List (LiveBot.Step Topic σ τ Id))
    (hsteps : ∀ degenbot, .receive degenbot ∈ steps → degenbot.Lawful factoryOf) :
    let s := (newManagers state.chainData helpers snapshot).made degenbot factoryOf
      (state.firstEvent - 1) loaded.botState.allPools.keys
    let w : LiveBot Topic σ τ Id := .start missed state.firstEvent s.poolManagers s.helpers s.snapshot
    ∃ last : LiveBot Topic σ τ Id,
      w.after abi events loaded.botState.allArbs steps = .ok last ∧
      last.creamEvents.received ++ last.creamEvents.waiting = LiveBot.logs steps ∧
      (LiveBot.NeverUnset steps →
        (w.calls abi events loaded.botState.allArbs steps).map
            (fun call => (call.processFunc, call.log)) =
          last.creamEvents.received.filterMap (dueCall events)) ∧
      ∀ arb ∈ loaded.botState.allArbs.cycles, ∀ pool ∈ arb.swapPools, ∃ helper seen unseen,
        degenbot.Builds factoryOf (state.firstEvent - 1) pool.address helper ∧
        w.calls abi events loaded.botState.allArbs steps = seen ++ unseen ∧
        last.trading.pipeline.handlers.helpers.get pool.object =
          (seen.filter fun call => call.log.address = pool.address).foldl
            (fun helper call => call.applied abi helper) helper ∧
        ((unseen = [] ∧
            helperOf factoryOf last.trading.pipeline.handlers.poolManagers pool.address = some pool) ∨
          ∃ before cut, seen = before ++ [cut] ∧
            TakesAway abi pool.address cut (Handling.run abi before w.trading.pipeline.handlers)) := by
  intro s w
  obtain ⟨hworking, last, hlast, hstart⟩ := exists_started
    (tracks_loaded hlawful hmanagers hpools hloaded) hloaded harbs abi events state.firstEvent missed steps
  obtain ⟨hlogs, hcalls⟩ := LiveBot.heard_after hworking rfl
    (Option.some_ne_none state.firstEvent) hlast
  refine ⟨last, hlast, hlogs, hcalls, fun arb harb pool hpool => ?_⟩
  obtain ⟨hsees, hbuilds⟩ := hstart arb harb pool hpool
  obtain ⟨seen, unseen, hseen⟩ := LiveBot.seen_after hworking hsees hsteps hlast
  exact ⟨_, seen, unseen, hbuilds, hseen⟩

/-! ### A Mint of a pool that was loaded -/

theorem oneFactory_builds {factory : Address} {build : Address → Option Int → σ}
    {update : PoolUpdate → σ → Except PyError Unit × σ}
    {updateSnapshot : Address → σ → τ → Except PyError Unit × τ} {stateBlock : Nat}
    {poolAddress : Address} {helper : σ}
    (h : (oneFactory factory build update updateSnapshot).Builds (fun _ => factory) stateBlock
      poolAddress helper) : helper = build poolAddress (some (stateBlock : Int)) := by
  obtain ⟨tracked, helpers, pool, after, hnone, hbuilt, rfl⟩ := h
  simp only [oneFactory, hnone, if_pos, Prod.mk.injEq, Except.ok.injEq] at hbuilt
  obtain ⟨rfl, rfl⟩ := hbuilt
  exact Heap.get_alloc_next ..

/-- `initialize` has made the managers; all pools are of one factory, and the first event is
of block 5. -/
def managersMade (degenbot : HelperCalls σ τ) (factory : Address) (helpers : Heap σ) (snapshot : τ) :
    BotState (List UInt8) :=
  {stateBeforeLoading with
    firstEvent := 5
    poolManagers := createPoolManagers (degenbot.managerClasses (fun _ => factory)
      (newManagers stateBeforeLoading.chainData helpers snapshot)) stateBeforeLoading.chainData 5}

def oneMint : List (LiveBot.Step Unit Nat Nat (List UInt8)) :=
  [.publish logOfPool1, .updateBotState (some (some 5)), .receive (recordsEnd (.ok ()))]

theorem oneMint_lawful : ∀ degenbot, .receive degenbot ∈ oneMint → degenbot.Lawful fun _ => .fill 20 := by
  intro degenbot hmem
  simp only [oneMint, List.mem_cons, List.not_mem_nil, or_false, reduceCtorEq, false_or,
    LiveBot.Step.receive.injEq] at hmem
  rw [hmem]
  exact oneFactory_lawful ..

/-- It is no Burn, so nothing is taken away. -/
theorem seen_of_mint {seen unseen : List (Handling Unit Nat Nat)} {poolAddress : Address}
    {s : HandlerState Nat Nat} {managed : Prop} (hcalls : [mintOfPool1 (.ok ())] = seen ++ unseen)
    (hall : (unseen = [] ∧ managed) ∨ ∃ before cut, seen = before ++ [cut] ∧
      TakesAway someLiquidity poolAddress cut (Handling.run someLiquidity before s)) :
    seen = [mintOfPool1 (.ok ())] := by
  rcases hall with ⟨rfl, _⟩ | ⟨before, cut, rfl, htakes⟩
  · rw [hcalls, List.append_nil]
  · have hmem : cut ∈ before ++ [cut] ++ unseen := by simp
    rw [← hcalls, List.mem_singleton] at hmem
    have hburn := htakes.2.1
    rw [hmem] at hburn
    cases hburn

/-- The helper of pool 1 is built with 0 updates, and counts the Mint. -/
theorem started_bot_follows_logs_mint : ∃ (loaded : Loaded (List UInt8)) (s : HandlerState Nat Nat)
    (last : LiveBot Unit Nat Nat (List UInt8)),
    loadPools id (managersMade (recordsEnd (.ok ())) (.fill 20) ⟨fun _ => 0, 0⟩ 0)
      [[v2Pool 1 8, v2Pool 2 8]] (.ofList [(arbOfTwo.id, arbOfTwo)]) .empty = .ok loaded ∧
    (LiveBot.start [] 5 s.poolManagers s.helpers s.snapshot).after someLiquidity onlyMint
      loaded.botState.allArbs oneMint = .ok last ∧
    last.trading.pipeline.handlers.helpers.get 0 = 1 := by
  obtain ⟨last, hlast, _, _, hpools⟩ := started_bot_follows_logs (recordsEnd (.ok ()))
    (fun _ => .fill 20) (oneFactory_lawful ..)
    (managersMade (recordsEnd (.ok ())) (.fill 20) ⟨fun _ => 0, 0⟩ 0) ⟨fun _ => 0, 0⟩ 0 rfl rfl rfl id
    [[v2Pool 1 8, v2Pool 2 8]] (.ofList [(arbOfTwo.id, arbOfTwo)]) .empty _ rfl someLiquidity onlyMint []
    oneMint oneMint_lawful
  refine ⟨_, _, last, rfl, hlast, ?_⟩
  obtain ⟨helper, seen, unseen, hbuilt, hcalls, hholds, hall⟩ := hpools
    (arbDetails stateBeforeLoading.chainData arbOfTwo [⟨.fill 1, 0⟩, ⟨.fill 2, 1⟩]).lpCycle
    (by decide) ⟨.fill 1, 0⟩ (by decide)
  rw [oneFactory_builds hbuilt] at hholds
  change [mintOfPool1 (.ok ())] = seen ++ unseen at hcalls
  rw [seen_of_mint hcalls hall] at hholds
  exact hholds

end CreamBots.App
