import CreamBots.App.LiveStates
import CreamBots.Data.Latest

/-! The reserves that the running bot has of V2 pools.

`update_reserves` refuses an update for a block before its last and takes over any other, so a
helper has the reserves of the latest Sync of its pool that it was told of
(`live_reserves_latest`). The messages may therefore overtake each other, as long as those of
one block come in order (`live_reserves_converge`). -/
namespace CreamBots.App
open Data Builders

variable {Topic σ τ Id : Type}

/-- What a V2 helper was last told. -/
structure Reserves where
  reserves0 : Nat
  reserves1 : Nat
  updateBlock : Nat
deriving DecidableEq

/-- `update_reserves` of degenbot, of helpers that have reserves. -/
structure HelperCalls.TakesReserves (degenbot : HelperCalls σ τ) (reserves : σ → Option Reserves) :
    Prop where
  stale : ∀ helper old (new : Reserves), reserves helper = some old → new.updateBlock < old.updateBlock →
    degenbot.update (.reserves new.reserves0 new.reserves1 new.updateBlock) helper =
      (.error .externalUpdateError, helper)
  taken : ∀ helper old (new : Reserves), reserves helper = some old → old.updateBlock ≤ new.updateBlock →
    ∃ after, degenbot.update (.reserves new.reserves0 new.reserves1 new.updateBlock) helper =
      (.ok (), after) ∧ reserves after = some new

/-- What a Sync says; nothing, if its data cannot be decoded. -/
def syncOf (abi : EthAbi Topic) (log : Log Topic) : Option Reserves :=
  match abi.sync log.data with
  | .error _ => none
  | .ok (reserves0, reserves1) => some ⟨reserves0, reserves1, log.blockNumber⟩

/-- The Syncs among the logs of a V2 pool. -/
def syncs [DecidableEq Topic] (abi : EthAbi Topic) (events : Events Topic) (poolAddress : Address)
    (logs : List (Log Topic)) : List Reserves :=
  (logs.filterMap (poolCall events poolAddress)).filterMap fun call => syncOf abi call.2

/-- The logs of the pool that are due a handler are Syncs. -/
def IsV2 [DecidableEq Topic] (events : Events Topic) (poolAddress : Address) (logs : List (Log Topic)) :
    Prop :=
  ∀ log ∈ logs, log.address = poolAddress → ∀ call, dueCall events log = some call →
    call.1 = .processSyncEvent

section Syncs
variable {abi : EthAbi Topic} {reserves : σ → Option Reserves} {poolAddress : Address} {helper : σ}
  {old : Reserves}

/-- A Sync is taken over unless it is older than what the helper has. -/
theorem reserves_applied {call : Handling Topic σ τ} (htakes : call.degenbot.TakesReserves reserves)
    (hfunc : call.processFunc = .processSyncEvent) (hold : reserves helper = some old) :
    reserves (call.applied abi helper) =
      some ((syncOf abi call.log).toList.foldl (later Reserves.updateBlock) old) := by
  have hread : call.readUpdate abi = (readSync abi call.log).map some := by
    rw [Handling.readUpdate, hfunc]
  rw [Handling.applied, hread, readSync, syncOf]
  cases abi.sync call.log.data with
  | error e => exact hold
  | ok pair =>
    obtain ⟨reserves0, reserves1⟩ := pair
    let new : Reserves := ⟨reserves0, reserves1, call.log.blockNumber⟩
    show reserves (call.degenbot.update (.reserves reserves0 reserves1 call.log.blockNumber) helper).2 =
      some (later Reserves.updateBlock old new)
    rw [later]
    by_cases hstale : new.updateBlock < old.updateBlock
    · rw [if_pos hstale]
      have hrefused := htakes.stale helper old new hold hstale
      exact (congrArg (fun outcome => reserves outcome.2) hrefused).trans hold
    · rw [if_neg hstale]
      obtain ⟨after, hafter, hreserves⟩ := htakes.taken helper old new hold (not_lt.mp hstale)
      exact (congrArg (fun outcome => reserves outcome.2) hafter).trans hreserves

/-- All Syncs of the pool, one after the other. -/
theorem reserves_appliedAll {calls : List (Handling Topic σ τ)}
    (htakes : ∀ call ∈ calls, call.degenbot.TakesReserves reserves)
    (hsync : ∀ call ∈ calls, call.log.address = poolAddress → call.processFunc = .processSyncEvent)
    (hold : reserves helper = some old) : reserves (appliedAll abi poolAddress calls helper) =
      some (latest Reserves.updateBlock old
        ((calls.filter fun call => call.log.address = poolAddress).filterMap
          fun call => syncOf abi call.log)) := by
  induction calls using List.reverseRecOn with
  | nil => exact hold
  | append_singleton calls call ih =>
    have hbefore := ih (fun c hc => htakes c (List.mem_append_left _ hc))
      fun c hc => hsync c (List.mem_append_left _ hc)
    have hmem : call ∈ calls ++ [call] := List.mem_append_right _ (List.mem_singleton_self _)
    rw [appliedAll_concat, List.filter_append, List.filterMap_append]
    by_cases haddress : call.log.address = poolAddress
    · rw [if_pos haddress, reserves_applied (htakes call hmem) (hsync call hmem haddress) hbefore,
        latest, latest, List.foldl_append]
      congr 2
      cases hsyncOf : syncOf abi call.log <;> simp [haddress, hsyncOf]
    · rw [if_neg haddress, hbefore]
      simp [haddress]

end Syncs

/-! ### The Syncs that were received -/

section Received
variable [DecidableEq Topic] {abi : EthAbi Topic} {events : Events Topic} {poolAddress : Address}
  {calls : List (Handling Topic σ τ)} {received : List (Log Topic)}

/-- The handlers that are called on the pool's logs are told its Syncs. -/
theorem told_eq_syncs (hcalls : calls.map (fun call => (call.processFunc, call.log)) =
      received.filterMap (dueCall events)) :
    ((calls.filter fun call => call.log.address = poolAddress).filterMap
      fun call => syncOf abi call.log) = syncs abi events poolAddress received := by
  rw [syncs, ← filter_dueCalls, ← hcalls, List.filter_map, List.filterMap_map]
  rfl

/-- Of a V2 pool they are all `process_sync_event`. -/
theorem IsV2.processFunc (h : IsV2 events poolAddress received)
    (hcalls : calls.map (fun call => (call.processFunc, call.log)) =
      received.filterMap (dueCall events))
    {call : Handling Topic σ τ} (hcall : call ∈ calls) (haddress : call.log.address = poolAddress) :
    call.processFunc = .processSyncEvent := by
  have hmem := List.mem_map_of_mem
    (f := fun call : Handling Topic σ τ => (call.processFunc, call.log)) hcall
  rw [hcalls] at hmem
  obtain ⟨log, hlog, hdue⟩ := List.mem_filterMap.mp hmem
  have hsame : call.log = log := dueCall_log hdue
  rw [hsame] at haddress
  exact h log hlog haddress _ hdue

end Received

section Live
variable [DecidableEq Topic] [DecidableEq Id] {abi : EthAbi Topic} {events : Events Topic}
  {allArbs : AllArbs Id} {factoryOf : Address → Address}
  {reserves : σ → Option Reserves} {w last : LiveBot Topic σ τ Id}
  {steps : List (LiveBot.Step Topic σ τ Id)} {pool : Pool} {helper : σ} {first : Reserves}

/-- The helper of a V2 pool stays and has the latest reserves. -/
theorem LiveBot.reserves_after (hworking : w.trading.Working allArbs)
    (hempty : w.creamEvents.received = []) (hknown : w.firstEvent ≠ none) (hset : NeverUnset steps)
    (hsees : Sees factoryOf abi pool.address pool helper [] w.trading.pipeline.handlers)
    (hlawful : ∀ degenbot, .receive degenbot ∈ steps →
      degenbot.Lawful factoryOf ∧ degenbot.TakesReserves reserves)
    (hlast : w.after abi events allArbs steps = .ok last)
    (hv2 : IsV2 events pool.address last.creamEvents.received)
    (hfirst : reserves helper = some first) :
    helperOf factoryOf last.trading.pipeline.handlers.poolManagers pool.address = some pool ∧
      reserves (last.trading.pipeline.handlers.helpers.get pool.object) =
        some (latest Reserves.updateBlock first
          (syncs abi events pool.address last.creamEvents.received)) := by
  obtain ⟨received, hreceived, hcalls⟩ := calls_after steps hworking hset hknown hlast
  rw [hempty, List.nil_append] at hreceived
  rw [← hreceived] at hcalls
  rcases sees_after hworking hsees (fun degenbot hmem => (hlawful degenbot hmem).1) hlast with
    hseen | ⟨before, cut, after, hsplit, htakes, _⟩
  · refine ⟨hseen.managed, ?_⟩
    rw [hseen.holds, ← told_eq_syncs hcalls]
    exact reserves_appliedAll (fun call hcall => (hlawful _ (mem_calls steps call hcall)).2)
      (fun call hcall haddress => hv2.processFunc hcalls hcall haddress) hfirst
  · -- A Burn takes a helper away, and a V2 pool is due none.
    have hmem : cut ∈ w.calls abi events allArbs steps := by
      rw [hsplit]
      exact List.mem_append_right _ (List.mem_cons_self ..)
    have hburn := htakes.2.1
    rw [hv2.processFunc hcalls hmem htakes.1] at hburn
    cases hburn

end Live

/-- **The reserves of a V2 pool are those of its latest Sync.** At any time of any run in which
no app state unsets the first event, the helper that a cycle has of a V2 pool is the managed
one, and of what it had at the start and the Syncs of the pool that were received it has the
one of the highest block, and of several of that block the last. -/
theorem live_reserves_latest [DecidableEq Topic] [DecidableEq Id] (abi : EthAbi Topic)
    (events : Events Topic) (firstEvent : Nat) (allArbs : AllArbs Id) (missed : List (Log Topic))
    (factoryOf : Address → Address) (reserves : σ → Option Reserves) (s : HandlerState σ τ)
    (hregistered : Registered factoryOf s.poolManagers) (hown : OwnObjects factoryOf s)
    (hconnected : Connected allArbs s) (steps : List (LiveBot.Step Topic σ τ Id))
    (hset : LiveBot.NeverUnset steps)
    (hlawful : ∀ degenbot, .receive degenbot ∈ steps →
      degenbot.Lawful factoryOf ∧ degenbot.TakesReserves reserves) :
    ∃ last : LiveBot Topic σ τ Id, (LiveBot.start missed firstEvent s.poolManagers s.helpers
        s.snapshot).after abi events allArbs steps = .ok last ∧
      ∀ arb ∈ allArbs.cycles, ∀ pool ∈ arb.swapPools, ∀ first,
        reserves (s.helpers.get pool.object) = some first →
        IsV2 events pool.address last.creamEvents.received →
        ∃ now before after,
          helperOf factoryOf last.trading.pipeline.handlers.poolManagers pool.address = some pool ∧
          reserves (last.trading.pipeline.handlers.helpers.get pool.object) = some now ∧
          first :: syncs abi events pool.address last.creamEvents.received = before ++ now :: after ∧
          (∀ r ∈ before, r.updateBlock ≤ now.updateBlock) ∧
          ∀ r ∈ after, r.updateBlock < now.updateBlock := by
  have hworking := Trading.working_start allArbs s.poolManagers s.helpers s.snapshot
  obtain ⟨last, hlast, _⟩ := LiveBot.exists_after abi events steps
    (w := .start missed firstEvent s.poolManagers s.helpers s.snapshot) hworking
  refine ⟨last, hlast, fun arb harb pool hpool first hfirst hv2 => ?_⟩
  obtain ⟨hmanaged, hreserves⟩ := LiveBot.reserves_after hworking rfl
    (Option.some_ne_none firstEvent) hset
    (LiveBot.sees_start abi missed firstEvent hregistered hown hconnected harb hpool) hlawful hlast hv2 hfirst
  obtain ⟨before, after, hsplit, hbefore, hafter⟩ := latest_split Reserves.updateBlock first
    (syncs abi events pool.address last.creamEvents.received)
  exact ⟨_, before, after, hmanaged, hreserves, hsplit, hbefore, hafter⟩

/-- **Messages of different blocks may overtake each other.** Two runs that have received the
same Syncs of a V2 pool, those of each block in the same order, have the same reserves of it,
whatever else they received and did, as long as no app state unset the first event. -/
theorem live_reserves_converge [DecidableEq Topic] [DecidableEq Id] (abi : EthAbi Topic)
    (events : Events Topic) (firstEvent : Nat) (allArbs : AllArbs Id) (missed : List (Log Topic))
    (factoryOf : Address → Address) (reserves : σ → Option Reserves) (s : HandlerState σ τ)
    (hregistered : Registered factoryOf s.poolManagers) (hown : OwnObjects factoryOf s)
    (hconnected : Connected allArbs s) (steps steps' : List (LiveBot.Step Topic σ τ Id))
    (hset : LiveBot.NeverUnset (steps ++ steps'))
    (hlawful : ∀ degenbot, .receive degenbot ∈ steps ++ steps' →
      degenbot.Lawful factoryOf ∧ degenbot.TakesReserves reserves) :
    ∃ last last' : LiveBot Topic σ τ Id,
      (LiveBot.start missed firstEvent s.poolManagers s.helpers s.snapshot).after abi events allArbs
        steps = .ok last ∧
      (LiveBot.start missed firstEvent s.poolManagers s.helpers s.snapshot).after abi events allArbs
        steps' = .ok last' ∧
      ∀ arb ∈ allArbs.cycles, ∀ pool ∈ arb.swapPools,
        (∃ first, reserves (s.helpers.get pool.object) = some first) →
        IsV2 events pool.address last.creamEvents.received →
        IsV2 events pool.address last'.creamEvents.received →
        (∀ block, ((syncs abi events pool.address last.creamEvents.received).filter fun r =>
            r.updateBlock = block) =
          (syncs abi events pool.address last'.creamEvents.received).filter fun r =>
            r.updateBlock = block) →
        reserves (last.trading.pipeline.handlers.helpers.get pool.object) =
          reserves (last'.trading.pipeline.handlers.helpers.get pool.object) := by
  have hworking := Trading.working_start allArbs s.poolManagers s.helpers s.snapshot
  obtain ⟨last, hlast, _⟩ := LiveBot.exists_after abi events steps
    (w := .start missed firstEvent s.poolManagers s.helpers s.snapshot) hworking
  obtain ⟨last', hlast', _⟩ := LiveBot.exists_after abi events steps'
    (w := .start missed firstEvent s.poolManagers s.helpers s.snapshot) hworking
  refine ⟨last, last', hlast, hlast', fun arb harb pool hpool hsome hv2 hv2' hsyncs => ?_⟩
  obtain ⟨first, hfirst⟩ := hsome
  have hstart := LiveBot.sees_start abi missed firstEvent hregistered hown hconnected harb hpool
  have hknown := Option.some_ne_none firstEvent
  obtain ⟨hset, hset'⟩ := LiveBot.neverUnset_append.mp hset
  obtain ⟨_, hreserves⟩ := LiveBot.reserves_after hworking rfl hknown hset hstart
    (fun degenbot hmem => hlawful degenbot (List.mem_append_left _ hmem)) hlast hv2 hfirst
  obtain ⟨_, hreserves'⟩ := LiveBot.reserves_after hworking rfl hknown hset' hstart
    (fun degenbot hmem => hlawful degenbot (List.mem_append_right _ hmem)) hlast' hv2' hfirst
  rw [hreserves, hreserves', latest_congr hsyncs]

/-! ### Two Syncs of pool 1 -/

/-- The data of a Sync are its two reserves. -/
def twoBytes : EthAbi Unit := {someLiquidity with
  sync := fun data =>
    match data with
    | [reserves0, reserves1] => .ok (reserves0.toNat, reserves1.toNat)
    | _ => .error .valueError}

/-- Helpers that are nothing but their reserves. -/
def takingReserves : HelperCalls Reserves Unit :=
  oneFactory (.fill 20) (fun _ _ => ⟨0, 0, 0⟩)
    (fun update helper =>
      match update with
      | .reserves reserves0 reserves1 updateBlock =>
        if updateBlock < helper.updateBlock then (.error .externalUpdateError, helper)
        else (.ok (), ⟨reserves0, reserves1, updateBlock⟩)
      | _ => (.ok (), helper))
    fun _ _ snapshot => (.ok (), snapshot)

theorem takingReserves_takes : takingReserves.TakesReserves some where
  stale _ _ _ hold h := by
    cases hold
    exact if_pos h
  taken _ _ new hold h := by
    cases hold
    exact ⟨new, if_neg (not_lt.mpr h), rfl⟩

def withoutReserves : HandlerState Reserves Unit :=
  ⟨afterTwoPools.poolManagers, ⟨fun _ => ⟨0, 0, 0⟩, 2⟩, (), []⟩

def syncAt (block : Nat) : Log Unit := ⟨.fill 1, block, [()], [5, 5]⟩

/-- The Syncs of these blocks are published, and then received, with an app state in between. -/
def syncsAt (first second : Nat) : List (LiveBot.Step Unit Reserves Unit Nat) :=
  [.publish (syncAt first), .publish (syncAt second), .receive takingReserves,
    .updateBotState (some (some first)), .receive takingReserves]

theorem syncsAt_neverUnset (first second : Nat) : LiveBot.NeverUnset (syncsAt first second) := by
  simp [syncsAt]

theorem syncsAt_lawful (first second : Nat) : ∀ degenbot, .receive degenbot ∈ syncsAt first second →
    degenbot.Lawful (fun _ => .fill 20) ∧ degenbot.TakesReserves some := by
  intro degenbot hmem
  simp only [syncsAt, List.mem_cons, List.not_mem_nil, or_false, reduceCtorEq, false_or,
    LiveBot.Step.receive.injEq, or_self] at hmem
  rw [hmem]
  exact ⟨oneFactory_lawful .., takingReserves_takes⟩

theorem onlySync_isV2 (poolAddress : Address) (logs : List (Log Unit)) :
    IsV2 onlySync poolAddress logs := by
  intro log _ _ call hdue
  obtain ⟨processFunc, hfunc, rfl⟩ := Option.map_eq_some_iff.mp hdue
  obtain ⟨topic0, _, hget⟩ := Option.bind_eq_some_iff.mp hfunc
  have hmem : (topic0, processFunc) ∈ [((), ProcessFunc.processSyncEvent)] := Dict.get?_eq_some.mp hget
  cases List.mem_singleton.mp hmem
  rfl

/-- The Sync of block 6 stays, and that of block 5 is refused. -/
theorem live_reserves_latest_overtaken : ∃ last : LiveBot Unit Reserves Unit Nat,
    (LiveBot.start [] 5 withoutReserves.poolManagers withoutReserves.helpers ()).after twoBytes onlySync
        oneCycle (syncsAt 6 5) = .ok last ∧
      6 ≤ (last.trading.pipeline.handlers.helpers.get 0).updateBlock := by
  obtain ⟨last, hlast, hpools⟩ := live_reserves_latest twoBytes onlySync 5 oneCycle [] (fun _ => .fill 20)
    some withoutReserves afterTwoPools_registered ⟨twoCounters_own.made, twoCounters_own.own⟩
    oneCycle_connected (syncsAt 6 5) (syncsAt_neverUnset 6 5) (syncsAt_lawful 6 5)
  refine ⟨last, hlast, ?_⟩
  cases hlast
  obtain ⟨now, before, after, _, hnow, hsplit, hbefore, hafter⟩ := hpools
    ⟨0, .fill 9, [⟨.fill 1, 0⟩, ⟨.fill 2, 1⟩], maxInput⟩ (by decide) ⟨.fill 1, 0⟩ (by decide) _ rfl
    (onlySync_isV2 _ _)
  have hmem : (⟨5, 5, 6⟩ : Reserves) ∈ before ++ now :: after := by
    rw [← hsplit]
    exact List.mem_cons_of_mem _ (List.mem_cons_self ..)
  refine le_of_le_of_eq ?_ (congrArg Reserves.updateBlock (Option.some.inj hnow)).symm
  rcases List.mem_append.mp hmem with hmem | hmem
  · exact hbefore _ hmem
  · rcases List.mem_cons.mp hmem with rfl | hmem
    · exact le_refl _
    · exact (hafter _ hmem).le

/-- In the other order it comes to the same. -/
theorem live_reserves_converge_overtaken : ∃ last last' : LiveBot Unit Reserves Unit Nat,
    (LiveBot.start [] 5 withoutReserves.poolManagers withoutReserves.helpers ()).after twoBytes onlySync
        oneCycle (syncsAt 6 5) = .ok last ∧
      (LiveBot.start [] 5 withoutReserves.poolManagers withoutReserves.helpers ()).after twoBytes onlySync
        oneCycle (syncsAt 5 6) = .ok last' ∧
      last.trading.pipeline.handlers.helpers.get 0 = last'.trading.pipeline.handlers.helpers.get 0 := by
  obtain ⟨last, last', hlast, hlast', hpools⟩ := live_reserves_converge twoBytes onlySync 5 oneCycle []
    (fun _ => .fill 20) some withoutReserves afterTwoPools_registered
    ⟨twoCounters_own.made, twoCounters_own.own⟩ oneCycle_connected (syncsAt 6 5) (syncsAt 5 6)
    (LiveBot.neverUnset_append.mpr ⟨syncsAt_neverUnset 6 5, syncsAt_neverUnset 5 6⟩)
    fun degenbot hmem => (List.mem_append.mp hmem).elim (syncsAt_lawful 6 5 degenbot)
      (syncsAt_lawful 5 6 degenbot)
  refine ⟨last, last', hlast, hlast', ?_⟩
  cases hlast
  cases hlast'
  have hsame := hpools ⟨0, .fill 9, [⟨.fill 1, 0⟩, ⟨.fill 2, 1⟩], maxInput⟩ (by decide) ⟨.fill 1, 0⟩
    (by decide) ⟨_, rfl⟩ (onlySync_isV2 _ _) (onlySync_isV2 _ _)
  refine Option.some.inj (hsame fun block => ?_)
  -- The Syncs of the two runs.
  show ([⟨5, 5, 6⟩, ⟨5, 5, 5⟩] : List Reserves).filter (fun r => r.updateBlock = block) =
    ([⟨5, 5, 5⟩, ⟨5, 5, 6⟩] : List Reserves).filter fun r => r.updateBlock = block
  by_cases h5 : block = 5
  · subst h5
    rfl
  · simp [List.filter_cons, Ne.symm h5]

end CreamBots.App
