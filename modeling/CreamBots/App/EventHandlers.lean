import CreamBots.App.EventService
import CreamBots.Data.Heap

/-! What the handlers of `process_uniswap_events` do.

A handler looks for the helper of a pool in every manager, updates it by what the log
says and, if nothing was raised, has a task put the address into `pools_to_process`.
The four that update pools differ in how they come to the update (`prepareSync`,
`prepareSwap`, `prepareLiquidity`), in whether the snapshot is updated with the helper,
and in what they do about an exception; the rest is `tryUpdate`. All that degenbot does
is taken from `HelperCalls`, anew for every call of a handler. -/
namespace CreamBots.App
open Data Builders

/-- What a manager tracks. -/
abbrev TrackedPools := Dict Address Pool

/-- What a handler tells a helper. -/
inductive PoolUpdate where
  | reserves (reserves0 reserves1 updateBlock : Nat)
  | swap (blockNumber liquidity : Nat) (tick : Int) (sqrtPriceX96 : Nat)
  | liquidityChange (blockNumber : Nat) (amount tickLower tickUpper : Int)
deriving DecidableEq

/-- `eth_abi.decode`, of the data of each event and of an `int24` topic. -/
structure EthAbi (Topic : Type) where
  sync : List UInt8 → Except PyError (Nat × Nat)
  swap : List UInt8 → Except PyError (Nat × Nat × Int)
  burn : List UInt8 → Except PyError Nat
  mint : List UInt8 → Except PyError Nat
  pairCreated : List UInt8 → Except PyError Address
  poolCreated : List UInt8 → Except PyError Address
  int24 : Topic → Except PyError Int

/-- What the calls into degenbot do while one handler runs. A helper is in a state of
type `σ`, the snapshot in one of type `τ`. -/
structure HelperCalls (σ τ : Type) where
  newManager : Address → Except PyError TrackedPools
  getPool : Address → TrackedPools → Heap σ → Address → Option Int →
    Except PyError Pool × TrackedPools × Heap σ
  delItem : TrackedPools → Address → Except PyError TrackedPools
  update : PoolUpdate → σ → Except PyError Unit × σ
  updateSnapshot : Address → σ → τ → Except PyError Unit × τ

/-- What the handlers work on: the managers by factory address, the helpers they have
made, the snapshot, and the tasks that are still to put an address. -/
structure HandlerState (σ τ : Type) where
  poolManagers : Dict Address TrackedPools
  helpers : Heap σ
  snapshot : τ
  putTasks : List Address

/-- What a handler returns or raises, and the state it leaves. -/
abbrev Outcome (σ τ α : Type) := Except PyError α × HandlerState σ τ

variable {Topic σ τ : Type}

namespace HandlerState

/-- `asyncio.create_task(pools_to_process.put(event_address))`. -/
def createPutTask (s : HandlerState σ τ) (eventAddress : Address) : HandlerState σ τ :=
  {s with putTasks := s.putTasks ++ [eventAddress]}

/-- `pool_manager.get_pool`. -/
def getPool (degenbot : HelperCalls σ τ) (s : HandlerState σ τ) (factory : Address)
    (tracked : TrackedPools) (poolAddress : Address) (stateBlock : Option Int) : Outcome σ τ Pool :=
  match degenbot.getPool factory tracked s.helpers poolAddress stateBlock with
  | (outcome, tracked, helpers) =>
    (outcome, {s with poolManagers := s.poolManagers.set factory tracked, helpers})

/-- The loop over the managers, up to the first that does not raise `ManagerError`. -/
def searchManagers (degenbot : HelperCalls σ τ) (eventAddress : Address) (stateBlock : Option Int) :
    List (Address × TrackedPools) → HandlerState σ τ → Outcome σ τ (Option Pool)
  | [], s => (.ok none, s)
  | (factory, tracked) :: rest, s =>
    match s.getPool degenbot factory tracked eventAddress stateBlock with
    | (.ok pool, s) => (.ok (some pool), s)
    | (.error .managerError, s) => searchManagers degenbot eventAddress stateBlock rest s
    | (.error e, s) => (.error e, s)

/-- The helper of a pool, none if the pool is unknown. -/
def findHelper (degenbot : HelperCalls σ τ) (s : HandlerState σ τ) (eventAddress : Address)
    (stateBlock : Option Int) : Outcome σ τ (Option Pool) :=
  searchManagers degenbot eventAddress stateBlock s.poolManagers.items s

/-- The manager of a factory, made if it is not there. -/
def ensureManager (degenbot : HelperCalls σ τ) (s : HandlerState σ τ) (factory : Address) :
    Outcome σ τ TrackedPools :=
  match s.poolManagers.get? factory with
  | some tracked => (.ok tracked, s)
  | none =>
    match degenbot.newManager factory with
    | .error e => (.error e, s)
    | .ok tracked => (.ok tracked, {s with poolManagers := s.poolManagers.set factory tracked})

/-- A helper for a new pool, built from the state after the block of its creation. -/
def addPool (degenbot : HelperCalls σ τ) (factory poolAddress : Address) (blockNumber : Nat)
    (s : HandlerState σ τ) : HandlerState σ τ :=
  match s.ensureManager degenbot factory with
  | (.error _, s) => s
  | (.ok tracked, s) => (s.getPool degenbot factory tracked poolAddress (some (blockNumber : Int))).2

/-- `update_reserves` or `external_update`. -/
def externalUpdate (degenbot : HelperCalls σ τ) (pool : Pool) (update : PoolUpdate)
    (s : HandlerState σ τ) : Outcome σ τ Unit :=
  match degenbot.update update (s.helpers.get pool.object) with
  | (outcome, helper) => (outcome, {s with helpers := s.helpers.write pool.object helper})

/-- `snapshot.update_snapshot` with the maps of the helper. -/
def updateSnapshot (degenbot : HelperCalls σ τ) (eventAddress : Address) (pool : Pool)
    (s : HandlerState σ τ) : Outcome σ τ Unit :=
  match degenbot.updateSnapshot eventAddress (s.helpers.get pool.object) s.snapshot with
  | (outcome, snapshot) => (outcome, {s with snapshot})

/-- The helper first, then the snapshot. -/
def updateAndRecord (degenbot : HelperCalls σ τ) (eventAddress : Address) (pool : Pool)
    (update : PoolUpdate) (s : HandlerState σ τ) : Outcome σ τ Unit :=
  match s.externalUpdate degenbot pool update with
  | (.ok _, s) => s.updateSnapshot degenbot eventAddress pool
  | (.error e, s) => (.error e, s)

/-- `pool_manager.__delitem__`, in the first manager that does not raise `KeyError`. -/
def removeFrom (degenbot : HelperCalls σ τ) (poolAddress : Address) :
    List (Address × TrackedPools) → HandlerState σ τ → Outcome σ τ Unit
  | [], s => (.ok (), s)
  | (factory, tracked) :: rest, s =>
    match degenbot.delItem tracked poolAddress with
    | .ok tracked => (.ok (), {s with poolManagers := s.poolManagers.set factory tracked})
    | .error .keyError => removeFrom degenbot poolAddress rest s
    | .error e => (.error e, s)

def removeHelper (degenbot : HelperCalls σ τ) (poolAddress : Address) (s : HandlerState σ τ) :
    Outcome σ τ Unit :=
  removeFrom degenbot poolAddress s.poolManagers.items s

end HandlerState

/-! ### From the log to the update -/

section Handlers
variable (abi : EthAbi Topic) (degenbot : HelperCalls σ τ)

/-- The helper that the update is for, none if the handler returns before. -/
abbrev Prepared (σ τ : Type) := Outcome σ τ (Option (Pool × PoolUpdate))

def readSync (log : Log Topic) : Except PyError PoolUpdate := do
  let (reserves0, reserves1) ← abi.sync log.data
  return .reserves reserves0 reserves1 log.blockNumber

def readSwap (log : Log Topic) : Except PyError PoolUpdate := do
  let (sqrtPriceX96, liquidity, tick) ← abi.swap log.data
  return .swap log.blockNumber liquidity tick sqrtPriceX96

/-- The log is read before the helper is looked for. -/
def prepareDecoded (update : Except PyError PoolUpdate) (eventAddress : Address)
    (stateBlock : Option Int) (s : HandlerState σ τ) : Prepared σ τ :=
  match update with
  | .error e => (.error e, s)
  | .ok update =>
    match s.findHelper degenbot eventAddress stateBlock with
    | (.error e, s) => (.error e, s)
    | (.ok none, s) => (.ok none, s)
    | (.ok (some pool), s) => (.ok (some (pool, update)), s)

def prepareSync (log : Log Topic) (s : HandlerState σ τ) : Prepared σ τ :=
  prepareDecoded degenbot (readSync abi log) log.address none s

def prepareSwap (log : Log Topic) (s : HandlerState σ τ) : Prepared σ τ :=
  prepareDecoded degenbot (readSwap abi log) log.address (some ((log.blockNumber : Int) - 1)) s

/-- `_, _, lower, upper = topics`, the ticks, and the amount. -/
def readLiquidity (decode : List UInt8 → Except PyError Nat) (log : Log Topic) :
    Except PyError (Int × Int × Nat) :=
  match log.topics with
  | [_, _, lower, upper] => do
    let tickLower ← abi.int24 lower
    let tickUpper ← abi.int24 upper
    let liquidity ← decode log.data
    return (tickLower, tickUpper, liquidity)
  | _ => .error .valueError

/-- The update of a Mint or a Burn, none if there is no liquidity in it. Of what reading
the log raises only `KeyError` is caught. -/
def readLiquidityUpdate (decode : List UInt8 → Except PyError Nat) (sign : Int) (log : Log Topic) :
    Except PyError (Option PoolUpdate) :=
  match readLiquidity abi decode log with
  | .error .keyError => .ok none
  | .error e => .error e
  | .ok (tickLower, tickUpper, liquidity) =>
    if liquidity = 0 then .ok none
    else .ok (some (.liquidityChange log.blockNumber (sign * liquidity) tickLower tickUpper))

/-- The helper is looked for before the log is read. -/
def prepareLiquidity (decode : List UInt8 → Except PyError Nat) (sign : Int) (log : Log Topic)
    (s : HandlerState σ τ) : Prepared σ τ :=
  match s.findHelper degenbot log.address (some ((log.blockNumber : Int) - 1)) with
  | (.error e, s) => (.error e, s)
  | (.ok none, s) => (.ok none, s)
  | (.ok (some pool), s) =>
    match readLiquidityUpdate abi decode sign log with
    | .error e => (.error e, s)
    | .ok none => (.ok none, s)
    | .ok (some update) => (.ok (some (pool, update)), s)

/-! ### The handlers -/

/-- `try`: the update; `except`: what is done about it; `else`: the task. -/
def tryUpdate (eventAddress : Address) (prepared : Prepared σ τ)
    (attempt : Pool → PoolUpdate → HandlerState σ τ → Outcome σ τ Unit)
    (onError : Pool → PyError → HandlerState σ τ → Outcome σ τ Unit) : Outcome σ τ Unit :=
  match prepared with
  | (.error e, s) => (.error e, s)
  | (.ok none, s) => (.ok (), s)
  | (.ok (some (pool, update)), s) =>
    match attempt pool update s with
    | (.ok _, s) => (.ok (), s.createPutTask eventAddress)
    | (.error e, s) => onError pool e s

/-- `pass`, or a line in the log. -/
def goOn (_ : Pool) (_ : PyError) (s : HandlerState σ τ) : Outcome σ τ Unit := (.ok (), s)

/-- After an `AssertionError` the helper leaves its manager. -/
def onBurnError (pool : Pool) (e : PyError) (s : HandlerState σ τ) : Outcome σ τ Unit :=
  match e with
  | .assertionError _ => s.removeHelper degenbot pool.address
  | _ => (.ok (), s)

def processSyncEvent (log : Log Topic) (s : HandlerState σ τ) : Outcome σ τ Unit :=
  tryUpdate log.address (prepareSync abi degenbot log s) (HandlerState.externalUpdate degenbot) goOn

def processSwapEvent (log : Log Topic) (s : HandlerState σ τ) : Outcome σ τ Unit :=
  tryUpdate log.address (prepareSwap abi degenbot log s) (HandlerState.externalUpdate degenbot) goOn

def processMintEvent (log : Log Topic) (s : HandlerState σ τ) : Outcome σ τ Unit :=
  tryUpdate log.address (prepareLiquidity abi degenbot abi.mint 1 log s)
    (HandlerState.updateAndRecord degenbot log.address) goOn

def processBurnEvent (log : Log Topic) (s : HandlerState σ τ) : Outcome σ τ Unit :=
  tryUpdate log.address (prepareLiquidity abi degenbot abi.burn (-1) log s)
    (HandlerState.updateAndRecord degenbot log.address) (onBurnError degenbot)

/-- A new pool of this factory: what is raised once the data are decoded is logged. -/
def processNewPoolEvent (decode : List UInt8 → Except PyError Address) (log : Log Topic)
    (s : HandlerState σ τ) : Outcome σ τ Unit :=
  match decode log.data with
  | .error e => (.error e, s)
  | .ok poolAddress => (.ok (), s.addPool degenbot log.address poolAddress log.blockNumber)

def processNewV2PoolEvent (log : Log Topic) (s : HandlerState σ τ) : Outcome σ τ Unit :=
  processNewPoolEvent degenbot abi.pairCreated log s

def processNewV3PoolEvent (log : Log Topic) (s : HandlerState σ τ) : Outcome σ τ Unit :=
  processNewPoolEvent degenbot abi.poolCreated log s

end Handlers

/-- The call of a handler, and what degenbot does during it. -/
structure Handling (Topic σ τ : Type) where
  processFunc : ProcessFunc
  log : Log Topic
  degenbot : HelperCalls σ τ

namespace Handling
variable (abi : EthAbi Topic)

def handle (call : Handling Topic σ τ) (s : HandlerState σ τ) : Outcome σ τ Unit :=
  match call.processFunc with
  | .processSyncEvent => processSyncEvent abi call.degenbot call.log s
  | .processMintEvent => processMintEvent abi call.degenbot call.log s
  | .processBurnEvent => processBurnEvent abi call.degenbot call.log s
  | .processSwapEvent => processSwapEvent abi call.degenbot call.log s
  | .processNewV2PoolEvent => processNewV2PoolEvent abi call.degenbot call.log s
  | .processNewV3PoolEvent => processNewV3PoolEvent abi call.degenbot call.log s

/-- The state after it. What is raised is caught where the handler was called. -/
def next (call : Handling Topic σ τ) (s : HandlerState σ τ) : HandlerState σ τ := (call.handle abi s).2

/-- The handlers, called one after the other. -/
def run (calls : List (Handling Topic σ τ)) (s : HandlerState σ τ) : HandlerState σ τ :=
  calls.foldl (fun s call => call.next abi s) s

/-! ### A call in three parts -/

/-- What the log tells the helper. -/
def readUpdate (call : Handling Topic σ τ) : Except PyError (Option PoolUpdate) :=
  match call.processFunc with
  | .processSyncEvent => (readSync abi call.log).map some
  | .processSwapEvent => (readSwap abi call.log).map some
  | .processMintEvent => readLiquidityUpdate abi abi.mint 1 call.log
  | .processBurnEvent => readLiquidityUpdate abi abi.burn (-1) call.log
  | .processNewV2PoolEvent => .ok none
  | .processNewV3PoolEvent => .ok none

/-- The block that a helper is built at if the event is the first to ask for it. -/
def stateBlock (call : Handling Topic σ τ) : Option Int :=
  match call.processFunc with
  | .processSyncEvent => none
  | _ => some ((call.log.blockNumber : Int) - 1)

def lookup (call : Handling Topic σ τ) (s : HandlerState σ τ) : Outcome σ τ (Option Pool) :=
  s.findHelper call.degenbot call.log.address call.stateBlock

/-- The update; a Mint or a Burn updates the snapshot as well. -/
def attempt (call : Handling Topic σ τ) : Pool → PoolUpdate → HandlerState σ τ → Outcome σ τ Unit :=
  match call.processFunc with
  | .processMintEvent => HandlerState.updateAndRecord call.degenbot call.log.address
  | .processBurnEvent => HandlerState.updateAndRecord call.degenbot call.log.address
  | _ => HandlerState.externalUpdate call.degenbot

def onError (call : Handling Topic σ τ) : Pool → PyError → HandlerState σ τ → Outcome σ τ Unit :=
  match call.processFunc with
  | .processBurnEvent => onBurnError call.degenbot
  | _ => goOn

/-- The update step: the helper that is updated and what comes of it. There is none if
the log cannot be read or says nothing, or if the pool is unknown. -/
def updateStep (call : Handling Topic σ τ) (s : HandlerState σ τ) :
    Option (Pool × Outcome σ τ Unit) :=
  match call.readUpdate abi, call.lookup s with
  | .ok (some update), (.ok (some pool), s) => some (pool, call.attempt pool update s)
  | _, _ => none

/-- The address, if the update step completed without exception. -/
def completed (call : Handling Topic σ τ) (s : HandlerState σ τ) : List Address :=
  match call.updateStep abi s with
  | some (_, (.ok _, _)) => [call.log.address]
  | _ => []

/-- What a call can do to the state. -/
inductive Turn (call : Handling Topic σ τ) (s : HandlerState σ τ) : HandlerState σ τ → Prop where
  | unread (h : call.updateStep abi s = none) : Turn call s s
  | looked (h : call.updateStep abi s = none) : Turn call s (call.lookup s).2
  | added (h : call.updateStep abi s = none) (poolAddress : Address)
    (hnew : call.processFunc = .processNewV2PoolEvent ∨ call.processFunc = .processNewV3PoolEvent) :
    Turn call s (s.addPool call.degenbot call.log.address poolAddress call.log.blockNumber)
  | updated {pool : Pool} {s' : HandlerState σ τ} (h : call.updateStep abi s = some (pool, (.ok (), s'))) :
    Turn call s (s'.createPutTask call.log.address)
  | failed {pool : Pool} {e : PyError} {s' : HandlerState σ τ}
    (h : call.updateStep abi s = some (pool, (.error e, s'))) :
    Turn call s (call.onError pool e s').2

/-- What it takes for a handler to have come to its update. -/
def Prepares (call : Handling Topic σ τ) (s : HandlerState σ τ) : Prepared σ τ → Prop
  | (.ok (some (pool, update)), s') =>
    call.readUpdate abi = .ok (some update) ∧ call.lookup s = (.ok (some pool), s')
  | (_, s') => call.updateStep abi s = none ∧ (s' = s ∨ s' = (call.lookup s).2)

variable {abi} {call : Handling Topic σ τ} {s : HandlerState σ τ}

theorem updateStep_eq_some {step : Pool × Outcome σ τ Unit} :
    call.updateStep abi s = some step ↔ ∃ update s', call.readUpdate abi = .ok (some update) ∧
      call.lookup s = (.ok (some step.1), s') ∧ step.2 = call.attempt step.1 update s' := by
  unfold updateStep
  split
  · rename_i update pool s' hread hlookup
    rw [Option.some.injEq]
    refine ⟨fun h => ?_, fun ⟨update', s'', hread', hlookup', hstep⟩ => ?_⟩
    · subst h
      exact ⟨update, s', hread, hlookup, rfl⟩
    · rw [hread] at hread'
      rw [hlookup] at hlookup'
      cases hread'
      obtain ⟨hpool, rfl⟩ := Prod.mk.inj hlookup'
      cases hpool
      exact Prod.ext rfl hstep.symm
  · rename_i hnot
    refine iff_of_false nofun fun ⟨update, s', hread, hlookup, _⟩ => ?_
    exact hnot update step.1 s' hread hlookup

theorem prepares_decoded {update : Except PyError PoolUpdate}
    (hread : call.readUpdate abi = update.map some) :
    Prepares abi call s (prepareDecoded call.degenbot update call.log.address call.stateBlock s) := by
  cases update with
  | error e =>
    refine ⟨?_, .inl rfl⟩
    rw [updateStep, hread]
    rfl
  | ok update =>
    have hread : call.readUpdate abi = .ok (some update) := hread
    rw [prepareDecoded, ← lookup.eq_1]
    rcases hlookup : call.lookup s with ⟨e | _ | pool, s'⟩
    · exact ⟨by simp [updateStep, hlookup], .inr (by rw [hlookup])⟩
    · exact ⟨by simp [updateStep, hlookup], .inr (by rw [hlookup])⟩
    · exact ⟨hread, hlookup⟩

theorem prepares_liquidity {decode : List UInt8 → Except PyError Nat} {sign : Int}
    (hread : call.readUpdate abi = readLiquidityUpdate abi decode sign call.log)
    (hblock : call.stateBlock = some ((call.log.blockNumber : Int) - 1)) :
    Prepares abi call s (prepareLiquidity abi call.degenbot decode sign call.log s) := by
  rw [prepareLiquidity, ← hblock, ← lookup.eq_1, ← hread]
  rcases hlookup : call.lookup s with ⟨e | _ | pool, s'⟩
  · exact ⟨by simp [updateStep, hlookup], .inr (by rw [hlookup])⟩
  · exact ⟨by simp [updateStep, hlookup], .inr (by rw [hlookup])⟩
  · rcases hupdate : call.readUpdate abi with e | _ | update
    · exact ⟨by simp [updateStep, hupdate], .inr (by rw [hlookup])⟩
    · exact ⟨by simp [updateStep, hupdate], .inr (by rw [hlookup])⟩
    · exact ⟨hupdate, hlookup⟩

/-- From there the four handlers go on in the same way. -/
theorem Prepares.turn {prepared : Prepared σ τ} (h : Prepares abi call s prepared) :
    Turn abi call s (tryUpdate call.log.address prepared call.attempt call.onError).2 := by
  have hearly : ∀ {s'}, call.updateStep abi s = none ∧ (s' = s ∨ s' = (call.lookup s).2) →
      Turn abi call s s' := by
    intro s' hstop
    rcases hstop with ⟨hstep, rfl | rfl⟩
    · exact .unread hstep
    · exact .looked hstep
  rcases prepared with ⟨e | _ | ⟨pool, update⟩, s'⟩
  · exact hearly h
  · exact hearly h
  · rw [tryUpdate]
    rcases hattempt : call.attempt pool update s' with ⟨e | _, s''⟩
    · refine .failed (updateStep_eq_some.mpr ⟨update, s', h.1, h.2, hattempt.symm⟩)
    · refine .updated (updateStep_eq_some.mpr ⟨update, s', h.1, h.2, hattempt.symm⟩)

/-- A handler does one of these five things. -/
theorem turn (abi : EthAbi Topic) (call : Handling Topic σ τ) (s : HandlerState σ τ) :
    Turn abi call s (call.next abi s) := by
  obtain ⟨processFunc, log, degenbot⟩ := call
  have hnew : ∀ {decode : List UInt8 → Except PyError Address},
      processFunc = .processNewV2PoolEvent ∨ processFunc = .processNewV3PoolEvent →
      updateStep abi ⟨processFunc, log, degenbot⟩ s = none →
      Turn abi ⟨processFunc, log, degenbot⟩ s (processNewPoolEvent degenbot decode log s).2 := by
    intro decode hfunc hstep
    rw [processNewPoolEvent]
    cases decode log.data with
    | error e => exact .unread hstep
    | ok poolAddress => exact .added hstep poolAddress hfunc
  cases processFunc with
  | processSyncEvent => exact Prepares.turn (prepares_decoded rfl)
  | processSwapEvent => exact Prepares.turn (prepares_decoded rfl)
  | processMintEvent => exact Prepares.turn (prepares_liquidity rfl rfl)
  | processBurnEvent => exact Prepares.turn (prepares_liquidity rfl rfl)
  | processNewV2PoolEvent => exact hnew (.inl rfl) rfl
  | processNewV3PoolEvent => exact hnew (.inr rfl) rfl

theorem next_of_completed {pool : Pool} {after : HandlerState σ τ}
    (h : call.updateStep abi s = some (pool, (.ok (), after))) :
    call.next abi s = after.createPutTask call.log.address := by
  have hturn := call.turn abi s
  generalize call.next abi s = next at hturn ⊢
  cases hturn with
  | unread hnone => rw [h] at hnone; cases hnone
  | looked hnone => rw [h] at hnone; cases hnone
  | added hnone _ _ => rw [h] at hnone; cases hnone
  | updated hupdated => rw [h] at hupdated; cases hupdated; rfl
  | failed hfailed => rw [h] at hfailed; cases hfailed

theorem next_of_failed {pool : Pool} {e : PyError} {after : HandlerState σ τ}
    (h : call.updateStep abi s = some (pool, (.error e, after))) :
    call.next abi s = (call.onError pool e after).2 := by
  have hturn := call.turn abi s
  generalize call.next abi s = next at hturn ⊢
  cases hturn with
  | unread hnone => rw [h] at hnone; cases hnone
  | looked hnone => rw [h] at hnone; cases hnone
  | added hnone _ _ => rw [h] at hnone; cases hnone
  | updated hupdated => rw [h] at hupdated; cases hupdated
  | failed hfailed => rw [h] at hfailed; cases hfailed; rfl

/-- Without an update step a handler that updates pools has looked for the helper at most. -/
theorem next_of_no_step (h : call.updateStep abi s = none)
    (hnew : ¬(call.processFunc = .processNewV2PoolEvent ∨ call.processFunc = .processNewV3PoolEvent)) :
    call.next abi s = s ∨ call.next abi s = (call.lookup s).2 := by
  have hturn := call.turn abi s
  generalize call.next abi s = next at hturn ⊢
  cases hturn with
  | unread _ => exact .inl rfl
  | looked _ => exact .inr rfl
  | added _ _ hfunc => exact absurd hfunc hnew
  | updated hupdated => rw [h] at hupdated; cases hupdated
  | failed hfailed => rw [h] at hfailed; cases hfailed

end Handling

/-! ### The tasks -/

section Tasks
variable {degenbot : HelperCalls σ τ}

namespace HandlerState

/-- Looking for a helper touches the managers and the helpers. -/
theorem searchManagers_frame (eventAddress : Address) (stateBlock : Option Int)
    (managers : List (Address × TrackedPools)) (s : HandlerState σ τ) :
    ∃ poolManagers helpers, (searchManagers degenbot eventAddress stateBlock managers s).2 =
      {s with poolManagers, helpers} := by
  induction managers generalizing s with
  | nil => exact ⟨_, _, rfl⟩
  | cons manager rest ih =>
    have hget : ∃ poolManagers helpers, (s.getPool degenbot manager.1 manager.2 eventAddress
        stateBlock).2 = {s with poolManagers, helpers} := ⟨_, _, rfl⟩
    rw [searchManagers]
    split
    · rename_i pool s' h
      rwa [h] at hget
    · rename_i s' h
      obtain ⟨poolManagers, helpers, hs'⟩ := hget
      rw [h] at hs'
      subst hs'
      exact ih _
    · rename_i e s' _ h
      rwa [h] at hget

theorem putTasks_addPool (factory poolAddress : Address) (blockNumber : Nat) (s : HandlerState σ τ) :
    (s.addPool degenbot factory poolAddress blockNumber).putTasks = s.putTasks := by
  have hensure : (s.ensureManager degenbot factory).2.putTasks = s.putTasks := by
    rw [ensureManager]
    cases s.poolManagers.get? factory with
    | some tracked => rfl
    | none => cases degenbot.newManager factory <;> rfl
  rw [addPool]
  split
  · rename_i e s' h
    rw [← hensure, h]
  · rename_i tracked s' h
    rw [← hensure, h]
    rfl

/-- The update writes to the helper and to the snapshot. -/
theorem updateAndRecord_frame (eventAddress : Address) (pool : Pool) (update : PoolUpdate)
    (s : HandlerState σ τ) : ∃ helpers snapshot,
      (s.updateAndRecord degenbot eventAddress pool update).2 = {s with helpers, snapshot} := by
  rw [updateAndRecord, externalUpdate]
  rcases degenbot.update update (s.helpers.get pool.object) with ⟨e | _, helper⟩
  · exact ⟨_, _, rfl⟩
  · exact ⟨_, _, rfl⟩

theorem removeFrom_frame (poolAddress : Address) (managers : List (Address × TrackedPools))
    (s : HandlerState σ τ) :
    ∃ poolManagers, (removeFrom degenbot poolAddress managers s).2 = {s with poolManagers} := by
  induction managers with
  | nil => exact ⟨_, rfl⟩
  | cons manager rest ih =>
    rw [removeFrom]
    split
    · exact ⟨_, rfl⟩
    · exact ih
    · exact ⟨_, rfl⟩

end HandlerState

namespace Handling

theorem attempt_frame (call : Handling Topic σ τ) (pool : Pool) (update : PoolUpdate)
    (s : HandlerState σ τ) :
    ∃ helpers snapshot, (call.attempt pool update s).2 = {s with helpers, snapshot} := by
  unfold attempt
  cases call.processFunc with
  | processMintEvent => exact HandlerState.updateAndRecord_frame ..
  | processBurnEvent => exact HandlerState.updateAndRecord_frame ..
  | _ => exact ⟨_, s.snapshot, rfl⟩

/-- The update step on the helper that was found. -/
theorem updateStep_frame {abi : EthAbi Topic} {call : Handling Topic σ τ} {s after : HandlerState σ τ}
    {pool : Pool} {outcome : Except PyError Unit}
    (h : call.updateStep abi s = some (pool, (outcome, after))) :
    ∃ found helpers snapshot, call.lookup s = (.ok (some pool), found) ∧
      after = {found with helpers, snapshot} := by
  obtain ⟨update, found, _, hfound, hattempt⟩ := updateStep_eq_some.mp h
  obtain ⟨helpers, snapshot, hframe⟩ := call.attempt_frame pool update found
  exact ⟨found, helpers, snapshot, hfound, by rw [← hframe, ← hattempt]⟩

theorem lookup_frame (call : Handling Topic σ τ) (s : HandlerState σ τ) :
    ∃ poolManagers helpers, (call.lookup s).2 = {s with poolManagers, helpers} :=
  HandlerState.searchManagers_frame ..

/-- What is done about an exception touches the managers only. -/
theorem onError_frame (call : Handling Topic σ τ) (pool : Pool) (e : PyError) (s : HandlerState σ τ) :
    ∃ poolManagers, (call.onError pool e s).2 = {s with poolManagers} := by
  unfold onError
  cases call.processFunc with
  | processBurnEvent =>
    cases e with
    | assertionError message => exact HandlerState.removeFrom_frame ..
    | _ => exact ⟨_, rfl⟩
  | _ => exact ⟨_, rfl⟩

/-- A task is created exactly if the update step completes. -/
theorem putTasks_next (abi : EthAbi Topic) (call : Handling Topic σ τ) (s : HandlerState σ τ) :
    (call.next abi s).putTasks = s.putTasks ++ call.completed abi s := by
  have hlookup : (call.lookup s).2.putTasks = s.putTasks := by
    obtain ⟨poolManagers, helpers, hframe⟩ := call.lookup_frame s
    rw [hframe]
  have hstep : ∀ {pool outcome s'}, call.updateStep abi s = some (pool, (outcome, s')) →
      s'.putTasks = s.putTasks := by
    intro pool outcome s' h
    obtain ⟨found, helpers, snapshot, hfound, rfl⟩ := updateStep_frame h
    rw [← hlookup, hfound]
  have hturn := call.turn abi s
  generalize call.next abi s = after at hturn ⊢
  unfold completed
  cases hturn with
  | unread h => rw [h, List.append_nil]
  | looked h => rw [h, hlookup, List.append_nil]
  | added h poolAddress _ => rw [h, HandlerState.putTasks_addPool, List.append_nil]
  | updated h => rw [h, HandlerState.createPutTask, hstep h]
  | @failed pool e s' h =>
    obtain ⟨poolManagers, hframe⟩ := call.onError_frame pool e s'
    rw [h, hframe, hstep h, List.append_nil]

end Handling
end Tasks
end CreamBots.App
