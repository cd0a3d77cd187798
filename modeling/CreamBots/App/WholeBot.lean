import CreamBots.App.Installation
import CreamBots.App.StartUp

/-! The bot, from its first program to its last log.

The programs fill the data directory, services keep the blacklists, `initialize` loads what
these leave, and the tasks of the running bot take their turns. What the layers say of each
other meets here: at any time a cycle that the bot trades is one of the pools that were listed
when its builder last ran, nothing that was ever blacklisted stands against it, and each of its
pools has a helper that was built before the first event and follows the logs of the pool
(`installed_bot_trades_and_follows`). -/
namespace CreamBots.App.Toolchain
open Data Builders Builders.Toolchain

variable {σ τ Topic Id : Type}

/-- `get_pool` raises `ManagerError` at most. -/
def HelperCaught (degenbot : HelperCalls σ τ) : Prop :=
  ∀ factory tracked helpers poolAddress stateBlock e after,
    degenbot.getPool factory tracked helpers poolAddress stateBlock = (.error e, after) →
      e = .managerError

section Start
variable {degenbot : HelperCalls σ τ} {factoryOf : Address → Address} {s : HandlerState σ τ}

theorem HelperCaught.askFor (h : HelperCaught degenbot) (factory poolAddress : Address)
    (stateBlock : Nat) :
    (s.askFor degenbot factory poolAddress stateBlock).1 = .error .managerError ∨
      ∃ pool, (s.askFor degenbot factory poolAddress stateBlock).1 = .ok pool := by
  rw [HandlerState.askFor, HandlerState.getPool]
  rcases hget : degenbot.getPool factory (s.trackedBy factory) s.helpers poolAddress
    (some (stateBlock : Int)) with ⟨e | pool, after⟩
  · rw [h _ _ _ _ _ _ _ hget]
    exact .inl rfl
  · exact .inr ⟨pool, rfl⟩

theorem HelperCaught.poolManager (h : HelperCaught degenbot) (factory : Address) :
    (degenbot.poolManager factoryOf s factory).Caught := by
  intro allPools poolAddress stateBlock fee
  rw [HelperCalls.poolManager]
  rcases h.askFor (s := s.made degenbot factoryOf stateBlock allPools.keys) factory poolAddress stateBlock
    with he | ⟨pool, hpool⟩
  · exact .inl (by simp only [he])
  · exact .inr ⟨pool, by simp only [hpool]⟩

theorem HelperCaught.managerClasses (h : HelperCaught degenbot) :
    (degenbot.managerClasses factoryOf s).Caught :=
  ⟨fun _ => h.poolManager _, fun _ _ => h.poolManager _⟩

variable [DecidableEq Id] {chain : Chain} {classes : ManagerClasses}
  {setOrder : List Address → List Address} {blacklists : Blacklists Id} {firstEvent : Nat}
  {dir : DataDir chain Id} {loaded : Loaded Id}

/-- What a start calls `load_pools` with. -/
theorem loadPools_of_start
    (h : start classes setOrder blacklists firstEvent dir = some (.ok loaded)) :
    ∃ lpFiles arbPaths2 arbPaths3, loadPools setOrder
      ⟨chainData chain, blacklists, firstEvent, createPoolManagers classes (chainData chain) firstEvent,
        .empty, .empty, false, false⟩ lpFiles arbPaths2 arbPaths3 = .ok loaded := by
  obtain ⟨v2Files, _, h⟩ := Option.bind_eq_some_iff.mp h
  obtain ⟨v3Files, _, h⟩ := Option.bind_eq_some_iff.mp h
  obtain ⟨arbPaths2, _, h⟩ := Option.bind_eq_some_iff.mp h
  obtain ⟨arbPaths3, _, h⟩ := Option.bind_eq_some_iff.mp h
  exact ⟨v2Files ++ v3Files, arbPaths2, arbPaths3, Option.some.inj h⟩

/-- The pools of a cycle are those of its path. -/
theorem path_of_trades {keccak : List UInt8 → Id} {wrappedToken : Address} {records : List PoolRecord}
    {isCycle : List Address → Prop} {botState : BotState Id}
    (h : Trades keccak wrappedToken blacklists records isCycle botState)
    (hown : botState.allPools.OwnAddresses) {arb : UniswapLpCycle Id}
    (harb : arb ∈ botState.allArbs.cycles) :
    isCycle (arb.swapPools.map Pool.address) ∧
      Tradable keccak blacklists records (arb.swapPools.map Pool.address) ∧
      arb.id = pathId keccak (arb.swapPools.map Pool.address) := by
  obtain ⟨id, details, hget, rfl⟩ := AllArbs.mem_cycles.mp harb
  obtain ⟨path, pools, hcycle, htradable, hpools, rfl, rfl⟩ := (h id details).mp hget
  show isCycle (pools.map Pool.address) ∧ Tradable keccak blacklists records (pools.map Pool.address) ∧
    pathId keccak path = pathId keccak (pools.map Pool.address)
  rw [addresses_of_path hown hpools]
  exact ⟨hcycle, htradable, rfl⟩

end Start

/-- **What the bot trades was listed, is not blacklisted, and is up to date.** However the
programs and the services took their turns before the start and the tasks after it, nothing is
raised, what is published from the subscription on is received in order, and the handlers are
called on just what is due of it, if no app state unsets the first event. A cycle that the bot
has is one of the pools that were listed when its builder last ran and that no listed text
stands against; the helper of each pool was built from the state after the block before the
first event, and holds what the calls on the logs of the pool have made of it: all of them, or
those up to the first Burn that took it away. -/
theorem installed_bot_trades_and_follows [DecidableEq Topic] [DecidableEq Id] (chain : Chain)
    (M : Multigraph Address ThreePool.EdgeData) (keccak : List UInt8 → Id)
    (hgenuine : chain.Genuine) (hfree : chain.CollisionFree keccak) (degenbot : HelperCalls σ τ)
    (factoryOf : Address → Address) (hlawful : degenbot.Lawful factoryOf)
    (hcaught : HelperCaught degenbot)
    (addressOrder : List Address → List Address) (horder : ∀ l, (addressOrder l).Perm l)
    (setOrder : SetOrder) (readId : String → Option Id) (readAddress : String → Option Address)
    (chainName : String) (files : JsonFiles) (happened : List (Event chain)) (helpers : Heap σ)
    (snapshot : τ) (firstEvent : Nat) (loaded : Loaded Id)
    (h : ((Installation.new chainName files).run M keccak setOrder happened).startBot
      (degenbot.managerClasses factoryOf (newManagers (chainData chain) helpers snapshot)) setOrder
      addressOrder readId readAddress firstEvent = some (.ok loaded))
    (abi : EthAbi Topic) (events : Events Topic) (missed : List (Log Topic))
    (steps : List (LiveBot.Step Topic σ τ Id))
    (hsteps : ∀ degenbot, .receive degenbot ∈ steps → degenbot.Lawful factoryOf) :
    let s := (newManagers (chainData chain) helpers snapshot).made degenbot factoryOf (firstEvent - 1)
      loaded.botState.allPools.keys
    let w : LiveBot Topic σ τ Id := .start missed firstEvent s.poolManagers s.helpers s.snapshot
    ∃ (before : Builder → List (Program chain)) (last : LiveBot Topic σ τ Id),
      (∀ b, LastRun b (programs happened) (before b)) ∧
      w.after abi events loaded.botState.allArbs steps = .ok last ∧
      last.creamEvents.received ++ last.creamEvents.waiting = LiveBot.logs steps ∧
      (LiveBot.NeverUnset steps →
        (w.calls abi events loaded.botState.allArbs steps).map
            (fun call => (call.processFunc, call.log)) =
          last.creamEvents.received.filterMap (dueCall events)) ∧
      ∀ arb ∈ loaded.botState.allArbs.cycles,
        (∃ b : Builder, b.IsCycle (DataDir.after M keccak (before b)).records chain.wrappedToken
          (arb.swapPools.map Pool.address)) ∧
        (∀ text, Listed chainName files happened .arbs text → readId text ≠ some arb.id) ∧
        ∀ pool ∈ arb.swapPools,
          (∀ text, Listed chainName files happened .pools text →
            readAddress text ≠ some pool.address) ∧
          ∃ helper seen unseen,
            degenbot.Builds factoryOf (firstEvent - 1) pool.address helper ∧
            w.calls abi events loaded.botState.allArbs steps = seen ++ unseen ∧
            last.trading.pipeline.handlers.helpers.get pool.object =
              (seen.filter fun call => call.log.address = pool.address).foldl
                (fun helper call => call.applied abi helper) helper ∧
            ((unseen = [] ∧ helperOf factoryOf last.trading.pipeline.handlers.poolManagers
                pool.address = some pool) ∨
              ∃ before cut, seen = before ++ [cut] ∧
                TakesAway abi pool.address cut (Handling.run abi before w.trading.pipeline.handlers)) := by
  intro s w
  rw [Installation.startBot, Installation.dir_run] at h
  obtain ⟨loaded', before, h', hlast, htrades⟩ := exists_start hgenuine hfree
    hcaught.managerClasses horder _ firstEvent (programs happened) (arbFiles_of_start h)
  cases h.symm.trans h'
  obtain ⟨lpFiles, arbPaths2, arbPaths3, hloaded⟩ := loadPools_of_start h
  have htracks := tracks_loaded hlawful rfl rfl hloaded
  obtain ⟨hworking, last, hrun, hstart⟩ := exists_started htracks hloaded rfl abi events
    firstEvent missed steps
  have hown : loaded.botState.allPools.OwnAddresses := fun poolAddress pool hget =>
    htracks.registered.address ((htracks.tracked poolAddress).trans hget)
  obtain ⟨hlogs, hcalls⟩ := LiveBot.heard_after hworking rfl (Option.some_ne_none firstEvent) hrun
  refine ⟨before, last, hlast, hrun, hlogs, hcalls, fun arb harb => ?_⟩
  obtain ⟨hcycle, htradable, hid⟩ := path_of_trades htrades hown harb
  refine ⟨hcycle, fun text hlisted hread => ?_, fun pool hpool => ⟨fun text hlisted hread => ?_, ?_⟩⟩
  · refine htradable.allowed ?_
    rw [← hid]
    exact Installation.mem_readSets.mpr ⟨text, (Installation.mem_started ..).mpr hlisted, hread⟩
  · obtain ⟨r, _, hr, hunlisted⟩ := htradable.listed _ (List.mem_map_of_mem hpool)
    refine hunlisted.1 ?_
    rw [hr]
    exact Installation.mem_readSets.mpr ⟨text, (Installation.mem_started ..).mpr hlisted, hread⟩
  · obtain ⟨hsees, hbuilds⟩ := hstart arb harb pool hpool
    obtain ⟨seen, unseen, hseen⟩ := LiveBot.seen_after hworking hsees hsteps hrun
    exact ⟨_, seen, unseen, hbuilds, hseen⟩

/-! ### A cycle of two pairs that were created -/

/-- No text is an id or an address. -/
theorem readSets_none {Id : Type} (setOrder : SetOrder) (sets : BlacklistType → Finset String) :
    readSets setOrder (fun _ => none) (fun _ => none) sets = (⟨[], [], [], []⟩ : Blacklists Id) := by
  simp [readSets]

/-- Nothing has ever been blacklisted. -/
def twoPairsEvents : List (Event twoPairs) := twoPairsPrograms.map .program

theorem startBot_twoPairs {degenbot : ManagerClasses} {firstEvent : Nat} :
    ((Installation.new "base" fun _ => none).run Multigraph.edgeList id .sorted twoPairsEvents).startBot
        degenbot .sorted id (fun _ => none) (fun _ => none) firstEvent =
      start degenbot id (⟨[], [], [], []⟩ : Blacklists (List UInt8)) firstEvent
        (DataDir.after Multigraph.edgeList id twoPairsPrograms) := by
  rw [Installation.startBot, Installation.dir_run, readSets_none]
  rfl

theorem recordsEnd_helperCaught (outcome : Except PyError Unit) : HelperCaught (recordsEnd outcome) := by
  intro factory tracked helpers poolAddress stateBlock e after h
  simp only [recordsEnd, oneFactory] at h
  split at h
  · cases h
  · split at h
    · cases h
    · cases h
      rfl

/-- Both ways around are traded; the helper of pool 1, made second, counts the Mint. -/
theorem installed_bot_trades_and_follows_mint : ∃ (loaded : Loaded (List UInt8))
    (s : HandlerState Nat Nat) (last : LiveBot Unit Nat Nat (List UInt8)),
    ((Installation.new "base" fun _ => none).run Multigraph.edgeList id .sorted twoPairsEvents).startBot
        ((recordsEnd (.ok ())).managerClasses (fun _ => .fill 20)
          (newManagers (chainData twoPairs) ⟨fun _ => 0, 0⟩ 0)) .sorted id (fun _ => none)
        (fun _ => none) 5 = some (.ok loaded) ∧
    loaded.botState.allArbs.cycles.map UniswapLpCycle.swapPools =
      [[⟨.fill 1, 1⟩, ⟨.fill 2, 0⟩], [⟨.fill 2, 0⟩, ⟨.fill 1, 1⟩]] ∧
    (LiveBot.start [] 5 s.poolManagers s.helpers s.snapshot).after someLiquidity onlyMint
      loaded.botState.allArbs oneMint = .ok last ∧
    last.trading.pipeline.handlers.helpers.get 1 = 1 := by
  obtain ⟨loaded, hloaded⟩ : ∃ loaded, start ((recordsEnd (.ok ())).managerClasses (fun _ => .fill 20)
      (newManagers (chainData twoPairs) ⟨fun _ => 0, 0⟩ 0)) id (⟨[], [], [], []⟩ : Blacklists (List UInt8)) 5
      (DataDir.after Multigraph.edgeList id twoPairsPrograms) = some (.ok loaded) := ⟨_, rfl⟩
  obtain ⟨_, last, _, hlast, _, _, harbs⟩ := installed_bot_trades_and_follows twoPairs Multigraph.edgeList id
    twoPairs_genuine Function.injective_id.injOn (recordsEnd (.ok ())) (fun _ => .fill 20)
    (oneFactory_lawful ..) (recordsEnd_helperCaught _) id List.Perm.refl .sorted (fun _ => none)
    (fun _ => none) "base" (fun _ => none) twoPairsEvents ⟨fun _ => 0, 0⟩ 0 5 loaded
    (startBot_twoPairs.trans hloaded) someLiquidity onlyMint [] oneMint oneMint_lawful
  refine ⟨loaded, _, last, startBot_twoPairs.trans hloaded, ?_, hlast, ?_⟩
  · cases hloaded
    rfl
  · have hcycle : ∃ arb ∈ loaded.botState.allArbs.cycles, (⟨.fill 1, 1⟩ : Pool) ∈ arb.swapPools := by
      cases hloaded
      exact ⟨_, List.mem_cons_self .., List.mem_cons_self ..⟩
    obtain ⟨arb, harb, hpool⟩ := hcycle
    obtain ⟨_, helper, seen, unseen, hbuilt, hcalls, hholds, hall⟩ := (harbs arb harb).2.2 _ hpool
    rw [oneFactory_builds hbuilt] at hholds
    cases hloaded
    change [mintOfPool1 (.ok ())] = seen ++ unseen at hcalls
    rw [seen_of_mint hcalls hall] at hholds
    exact hholds

end CreamBots.App.Toolchain
