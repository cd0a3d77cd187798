import CreamBots.App.Cycle
import CreamBots.Data.Raise

/-! Event logs and the handlers they are handed to.

`process_uniswap_events` looks the first topic of each log up in `_EVENTS` and calls the
handler it finds. Once the first event is known, a log is handed over exactly if its
first topic is in the table (`handOver_eq`). -/
namespace CreamBots.App
open Data Builders

/-- The handlers that are defined in `process_uniswap_events`. -/
inductive ProcessFunc where
  | processSyncEvent
  | processMintEvent
  | processBurnEvent
  | processSwapEvent
  | processNewV2PoolEvent
  | processNewV3PoolEvent
deriving DecidableEq

/-- `params.result` of a message on `cream_events`. -/
structure Log (Topic : Type) where
  address : Address
  blockNumber : Nat
  topics : List Topic
  data : List UInt8
deriving DecidableEq

/-- `_EVENTS`. -/
abbrev Events (Topic : Type) := Dict Topic ProcessFunc

/-- A handler with the log it is called on. -/
abbrev HandlerCall (Topic : Type) := ProcessFunc × Log Topic

section Events
variable {Topic : Type} [DecidableEq Topic]

/-- The six signatures, hashed, with their handlers. -/
def uniswapEvents (keccak : String → Topic) : Events Topic :=
  .ofList [(keccak "Sync(uint112,uint112)", .processSyncEvent),
    (keccak "Mint(address,address,int24,int24,uint128,uint256,uint256)", .processMintEvent),
    (keccak "Burn(address,int24,int24,uint128,uint256,uint256)", .processBurnEvent),
    (keccak "Swap(address,address,int256,int256,uint160,uint128,int24)", .processSwapEvent),
    (keccak "PairCreated(address,address,address,uint256)", .processNewV2PoolEvent),
    (keccak "PoolCreated(address,address,uint24,int24,address)", .processNewV3PoolEvent)]

variable (events : Events Topic)

/-- One round of the loop, for a message with a log. What it raises is caught around
the loop, which then goes on with the next message. -/
def handOver (firstEvent : Option Nat) (log : Log Topic) :
    Except PyError (Option (HandlerCall Topic)) :=
  match firstEvent with
  -- The block is read from the message itself, which has no `params`.
  | none => .error .keyError
  | some _ =>
    match log.topics with
    | [] => .error .indexError
    | topic0 :: _ =>
      match events.get? topic0 with
      | none => .ok none
      | some processFunc => .ok (some (processFunc, log))

/-- The call a log is due, if its first topic is in the table. -/
def dueCall (log : Log Topic) : Option (HandlerCall Topic) :=
  (log.topics.head?.bind events.get?).map fun processFunc => (processFunc, log)

/-- The call a log of this pool is due. -/
def poolCall (poolAddress : Address) (log : Log Topic) : Option (HandlerCall Topic) :=
  if log.address = poolAddress then dueCall events log else none

variable {events}

/-- The log, for all that is raised on it, meets its handler or has none. -/
theorem handOver_eq (firstEvent : Nat) (log : Log Topic) :
    ((handOver events (some firstEvent) log).toOption).join = dueCall events log := by
  unfold handOver dueCall
  cases log.topics with
  | nil => rfl
  | cons topic0 rest =>
    show (Except.toOption (match events.get? topic0 with
      | none => .ok none
      | some processFunc => .ok (some (processFunc, log)))).join = (events.get? topic0).map _
    cases events.get? topic0 <;> rfl

theorem dueCall_log {log : Log Topic} {call : HandlerCall Topic} (h : dueCall events log = some call) :
    call.2 = log := by
  obtain ⟨_, _, rfl⟩ := Option.map_eq_some_iff.mp h
  rfl

/-- The calls of one pool are those that its logs are due. -/
theorem filter_dueCalls (poolAddress : Address) (logs : List (Log Topic)) :
    (logs.filterMap (dueCall events)).filter (fun call => decide (call.2.address = poolAddress)) =
      logs.filterMap (poolCall events poolAddress) := by
  rw [List.filter_filterMap]
  congr 1
  funext log
  unfold poolCall
  cases h : dueCall events log with
  | none => simp
  | some call =>
    rw [Option.filter_some, dueCall_log h]
    by_cases hlog : log.address = poolAddress <;> simp [hlog]

end Events
end CreamBots.App
