import CreamBots.App.EventService
import CreamBots.Data.Listen

/-! The loop that receives the events.

`process_uniswap_events` goes through what Redis hands out in two loops: `async for`
ends with the first message on which something is raised, and `while True` starts it
again with the next. Whatever a message holds and whatever its handler raises, the loop
goes on as if the message had been nothing (`relisten_fst`), so once the first event is
known the handlers are called on exactly the events that are due
(`bad_message_costs_itself`). Until it is known every message raises: its block number is
looked for in the envelope, which has none (`first_event_not_set`). -/
namespace CreamBots.App
open Data Builders

/-! ### JSON -/

/-- What `ujson.loads` returns; of a number only its text is kept. -/
inductive Json where
  | null
  | bool (b : Bool)
  | number (text : String)
  | string (s : String)
  | array (items : List Json)
  | object (fields : List (String × Json))

namespace Json

/-- `value[key]` with a text; of a repeated key the last value counts. -/
def getItem : Json → String → Except PyError Json
  | object fields, key =>
    match Dict.lastValue? fields key with
    | some value => .ok value
    | none => .error .keyError
  | _, _ => .error .typeError

/-- `value[0]`. -/
def first : Json → Except PyError Json
  | array (item :: _) => .ok item
  | array [] => .error .indexError
  | string s =>
    match s.toList with
    | c :: _ => .ok (string (String.singleton c))
    | [] => .error .indexError
  | object _ => .error .keyError
  | _ => .error .typeError

/-- `value["params"]["result"]`. -/
def result (event : Json) : Except PyError Json := do
  let params ← event.getItem "params"
  params.getItem "result"

/-- `event["params"]["result"]["blockNumber"]`. -/
def eventBlock (event : Json) : Except PyError Json := do
  let result ← event.result
  result.getItem "blockNumber"

/-- `event["params"]["result"]["topics"][0]`. -/
def topic0 (event : Json) : Except PyError Json := do
  let result ← event.result
  let topics ← result.getItem "topics"
  topics.first

end Json

/-! ### Messages -/

inductive RedisValue where
  | none
  | text (s : String)
  | number (n : Int)
  | bytes (b : List UInt8)
deriving DecidableEq

namespace RedisValue

def truthy : RedisValue → Bool
  | none => false
  | text s => decide (s ≠ "")
  | number n => decide (n ≠ 0)
  | bytes b => decide (b ≠ [])

/-- None of these values is indexed by a text. -/
def getItem (_ : RedisValue) (_ : String) : Except PyError RedisValue := .error .typeError

/-- `ujson.loads(data.decode("utf-8"))`, where `loads` reads decoded bytes. -/
def decode (loads : List UInt8 → Except PyError Json) : RedisValue → Except PyError Json
  | bytes b => loads b
  | _ => .error .attributeError

end RedisValue

/-- What `pubsub.listen()` hands out. -/
structure Message where
  type : String
  pattern : RedisValue
  channel : RedisValue
  data : RedisValue

/-- The envelope is a dictionary of these four keys. -/
def Message.getItem (message : Message) : String → Except PyError RedisValue
  | "type" => .ok (.text message.type)
  | "pattern" => .ok message.pattern
  | "channel" => .ok message.channel
  | "data" => .ok message.data
  | _ => .error .keyError

/-! ### The loops -/

/-- `first_event`, and the calls that were made. -/
structure Receiver where
  firstEvent : Option RedisValue
  calls : List (ProcessFunc × Json)

section Loop
/-- What the loop meets: `ujson.loads` of decoded bytes, `int(.., 16)`, and what the
n-th call of a handler raises. -/
structure Surroundings where
  loads : List UInt8 → Except PyError Json
  int16 : Json → Except PyError Int
  raises : Nat → Option PyError

variable (events : Events String) (python : Surroundings)

/-- Set the first event. -/
def Receiver.setFirstEvent (s : Receiver) (message : Message) : Except PyError Receiver :=
  match s.firstEvent with
  | some _ => .ok s
  | none => do
    let params ← message.getItem "params"
    let result ← params.getItem "result"
    let blockNumber ← result.getItem "blockNumber"
    return {s with firstEvent := some blockNumber}

/-- `_EVENTS[topic0]["process_func"]`. Lists and dictionaries cannot be looked up. -/
def processFunc : Json → Except PyError ProcessFunc
  | .string topic =>
    match events.get? topic with
    | some processFunc => .ok processFunc
    | none => .error .keyError
  | .array _ => .error .typeError
  | .object _ => .error .typeError
  | _ => .error .keyError

/-- The block and the first topic of an event. -/
def Surroundings.readEvent (data : RedisValue) : Except PyError (Json × Json × Json) := do
  let event ← data.decode python.loads
  let eventBlock ← event.eventBlock
  let topic0 ← event.topic0
  return (event, eventBlock, topic0)

/-- The call of a handler; then the block number is logged. -/
def Receiver.call (s : Receiver) (processFunc : ProcessFunc) (event eventBlock : Json) :
    Receiver × Option PyError :=
  let called := {s with calls := s.calls ++ [(processFunc, event)]}
  match python.raises s.calls.length with
  | some e => (called, some e)
  | none =>
    match python.int16 eventBlock with
    | .error e => (called, some e)
    | .ok _ => (called, none)

/-- What is done with the data of a message. -/
def Receiver.dispatch (s : Receiver) (data : RedisValue) : Receiver × Option PyError :=
  match python.readEvent data with
  | .error e => (s, some e)
  | .ok (event, eventBlock, topic0) =>
    match processFunc events topic0 with
    -- All three `except` clauses continue.
    | .error _ => (s, none)
    | .ok processFunc => s.call python processFunc event eventBlock

/-- The body of `async for`: the state after it and what it raises. -/
def Receiver.body (s : Receiver) (message : Message) : Receiver × Option PyError :=
  if message.type = "message" then
    match s.setFirstEvent message with
    | .error e => (s, some e)
    | .ok s => if message.data.truthy then s.dispatch events python message.data else (s, none)
  else (s, none)

/-- `while True` around `async for message in pubsub.listen()`, over a stream that ends. -/
def processUniswapEvents (s : Receiver) (messages : List Message) : Receiver :=
  (relisten (Receiver.body events python) s messages).1

/-! ### The events that are due -/

/-- The call that an event is due: it has a block number and a first topic in the table. -/
def dueEvent (event : Json) : Option (ProcessFunc × Json) :=
  match event.eventBlock, event.topic0 with
  | .ok _, .ok (.string topic) =>
    (events.get? topic).map fun processFunc => (processFunc, event)
  | _, _ => none

/-- The call that a message is due: it is of type `message` and its data decode to an
event that is due one. -/
def dueOf (message : Message) : Option (ProcessFunc × Json) :=
  if message.type = "message" ∧ message.data.truthy then
    (message.data.decode python.loads).toOption.bind (dueEvent events)
  else none

variable {events python}

theorem dueEvent_eq_some {event : Json} {call : ProcessFunc × Json} :
    dueEvent events event = some call ↔
      call.2 = event ∧ (∃ eventBlock, event.eventBlock = .ok eventBlock) ∧
        ∃ topic, event.topic0 = .ok (.string topic) ∧ events.get? topic = some call.1 := by
  unfold dueEvent
  split
  · rename_i eventBlock topic hblock htopic
    rw [Option.map_eq_some_iff]
    refine ⟨fun ⟨processFunc, hget, hcall⟩ => ?_, fun ⟨hevent, _, topic', htopic', hget⟩ => ?_⟩
    · rw [← hcall]
      exact ⟨rfl, ⟨eventBlock, hblock⟩, topic, htopic, hget⟩
    · rw [htopic] at htopic'
      cases htopic'
      exact ⟨call.1, hget, by rw [← hevent]⟩
  · rename_i hnot
    refine iff_of_false nofun fun ⟨_, ⟨eventBlock, hblock⟩, topic, htopic, _⟩ => ?_
    exact hnot eventBlock topic hblock htopic

theorem toOption_eq_some {ε α : Type} {e : Except ε α} {a : α} : e.toOption = some a ↔ e = .ok a := by
  cases e with
  | error _ => exact iff_of_false nofun nofun
  | ok b => exact ⟨fun h => congrArg Except.ok (Option.some.inj h), fun h => congrArg some (Except.ok.inj h)⟩

/-- Only bytes are decoded. -/
theorem decode_eq_ok {data : RedisValue} {event : Json} : data.decode python.loads = .ok event ↔
    ∃ bytes, data = .bytes bytes ∧ python.loads bytes = .ok event := by
  cases data with
  | bytes b =>
    refine ⟨fun h => ⟨b, rfl, h⟩, fun ⟨bytes, hbytes, h⟩ => ?_⟩
    cases hbytes
    exact h
  | _ => exact iff_of_false nofun fun ⟨_, h, _⟩ => nomatch h

theorem dueOf_eq_some {message : Message} {call : ProcessFunc × Json} :
    dueOf events python message = some call ↔
      message.type = "message" ∧ ∃ bytes, message.data = .bytes bytes ∧ bytes ≠ [] ∧
        python.loads bytes = .ok call.2 ∧ (∃ eventBlock, call.2.eventBlock = .ok eventBlock) ∧
        ∃ topic, call.2.topic0 = .ok (.string topic) ∧ events.get? topic = some call.1 := by
  rw [dueOf, Option.ite_none_right_eq_some]
  simp only [Option.bind_eq_some_iff, toOption_eq_some, decode_eq_ok, dueEvent_eq_some]
  refine ⟨fun ⟨⟨htype, htruthy⟩, event, ⟨bytes, hdata, hloads⟩, hevent, hrest⟩ => ?_,
    fun ⟨htype, bytes, hdata, hne, hloads, hrest⟩ => ?_⟩
  · subst hevent
    rw [hdata] at htruthy
    exact ⟨htype, bytes, hdata, of_decide_eq_true htruthy, hloads, hrest⟩
  · have htruthy : message.data.truthy = true := by
      rw [hdata]
      exact decide_eq_true hne
    exact ⟨⟨htype, htruthy⟩, call.2, ⟨bytes, hdata, hloads⟩, rfl, hrest⟩

theorem call_fst (s : Receiver) (processFunc : ProcessFunc) (event eventBlock : Json) :
    (s.call python processFunc event eventBlock).1 =
      {s with calls := s.calls ++ [(processFunc, event)]} := by
  unfold Receiver.call
  cases python.raises s.calls.length with
  | some e => rfl
  | none => cases python.int16 eventBlock <;> rfl

/-- As far as reading the event comes, it makes the call that the event is due. -/
theorem dispatch_fst (s : Receiver) (data : RedisValue) :
    (s.dispatch events python data).1 = {s with
      calls := s.calls ++ ((data.decode python.loads).toOption.bind (dueEvent events)).toList} := by
  have hnone : {s with calls := s.calls ++ (none : Option (ProcessFunc × Json)).toList} = s := by
    simp
  cases hdecode : data.decode python.loads with
  | error e =>
    rw [Receiver.dispatch, Surroundings.readEvent, hdecode]
    exact hnone.symm
  | ok event =>
    have hread : python.readEvent data = event.eventBlock >>= fun eventBlock =>
        event.topic0 >>= fun topic0 => pure (event, eventBlock, topic0) := by
      rw [Surroundings.readEvent, hdecode]
      rfl
    show _ = {s with calls := s.calls ++ (dueEvent events event).toList}
    rw [Receiver.dispatch, hread, dueEvent]
    cases event.eventBlock with
    | error e => exact hnone.symm
    | ok eventBlock =>
      cases event.topic0 with
      | error e => exact hnone.symm
      | ok topic0 =>
        cases topic0 with
        | string topic =>
          show (match processFunc events (.string topic) with
            | .error _ => (s, none)
            | .ok processFunc => s.call python processFunc event eventBlock).1 = {s with
              calls := s.calls ++
                ((events.get? topic).map fun processFunc => (processFunc, event)).toList}
          cases hget : events.get? topic with
          | none =>
            have hfunc : processFunc events (.string topic) = .error .keyError := by
              rw [processFunc, hget]
            rw [hfunc]
            exact hnone.symm
          | some func =>
            have hfunc : processFunc events (.string topic) = .ok func := by
              rw [processFunc, hget]
            rw [hfunc]
            exact call_fst ..
        | _ => exact hnone.symm

/-- With the first event known a body makes the call that its message is due. -/
theorem body_of_known (s : Receiver) {firstEvent : RedisValue} (h : s.firstEvent = some firstEvent)
    (message : Message) :
    (s.body events python message).1 =
      {s with calls := s.calls ++ (dueOf events python message).toList} := by
  have hset : s.setFirstEvent message = .ok s := by
    rw [Receiver.setFirstEvent, h]
  rw [Receiver.body, dueOf]
  by_cases htype : message.type = "message"
  · rw [if_pos htype, hset]
    show (if message.data.truthy then s.dispatch events python message.data else (s, none)).1 = _
    by_cases htruthy : message.data.truthy = true
    · rw [if_pos htruthy, if_pos ⟨htype, htruthy⟩, dispatch_fst]
    · rw [if_neg htruthy, if_neg fun h => htruthy h.2]
      simp
  · rw [if_neg htype, if_neg fun h => htype h.1]
    simp

/-- So does every body of a stream. -/
theorem processUniswapEvents_of_known (firstEvent : RedisValue) (calls : List (ProcessFunc × Json))
    (stream : List Message) : processUniswapEvents events python ⟨some firstEvent, calls⟩ stream =
      ⟨some firstEvent, calls ++ stream.filterMap (dueOf events python)⟩ := by
  rw [processUniswapEvents, relisten_fst]
  induction stream generalizing calls with
  | nil => simp
  | cons message rest ih =>
    rw [handleAll_cons, body_of_known _ rfl, ih, List.filterMap_cons]
    cases dueOf events python message <;> simp

/-- **The handlers are called on exactly the events that are due**, each once, in order. -/
theorem bad_message_costs_itself (events : Events String) (python : Surroundings)
    (firstEvent : RedisValue) (stream : List Message) :
    (processUniswapEvents events python ⟨some firstEvent, []⟩ stream).calls =
        stream.filterMap (dueOf events python) ∧
      ∀ message call, dueOf events python message = some call ↔
        message.type = "message" ∧ ∃ bytes, message.data = .bytes bytes ∧ bytes ≠ [] ∧
          python.loads bytes = .ok call.2 ∧ (∃ eventBlock, call.2.eventBlock = .ok eventBlock) ∧
          ∃ topic, call.2.topic0 = .ok (.string topic) ∧ events.get? topic = some call.1 := by
  refine ⟨?_, fun message call => dueOf_eq_some⟩
  rw [processUniswapEvents_of_known, List.nil_append]

/-! ### Messages with event logs -/

/-- How a log is written: addresses, numbers and bytes as text. -/
structure Spelling where
  address : Address → String
  hex : Nat → String
  hexBytes : List UInt8 → String

/-- The event of a log, as the node sends it. -/
def Log.event (spelling : Spelling) (log : Log String) : Json :=
  .object [("method", .string "eth_subscription"), ("params", .object [("result", .object [
    ("address", .string (spelling.address log.address)),
    ("blockNumber", .string (spelling.hex log.blockNumber)),
    ("topics", .array (log.topics.map Json.string)),
    ("data", .string (spelling.hexBytes log.data))])])]

/-- The message carries this log. -/
structure Carries (python : Surroundings) (spelling : Spelling) (message : Message)
    (log : Log String) : Prop where
  type : message.type = "message"
  data : ∃ bytes, bytes ≠ [] ∧ message.data = .bytes bytes ∧
    python.loads bytes = .ok (log.event spelling)

variable {spelling : Spelling}

theorem topic0_event (log : Log String) : (log.event spelling).topic0 =
    match log.topics with
    | [] => .error .indexError
    | topic :: _ => .ok (.string topic) := by
  show (Json.array (log.topics.map Json.string)).first = _
  cases log.topics <;> rfl

theorem eventBlock_event (log : Log String) :
    (log.event spelling).eventBlock = .ok (.string (spelling.hex log.blockNumber)) := rfl

/-- Such a message is due the call that its log is due. -/
theorem Carries.dueOf_eq {message : Message} {log : Log String}
    (h : Carries python spelling message log) :
    dueOf events python message =
      (dueCall events log).map fun call => (call.1, log.event spelling) := by
  obtain ⟨bytes, hne, hdata, hloads⟩ := h.data
  have htruthy : message.data.truthy = true := by
    rw [hdata]
    exact decide_eq_true hne
  have hdecode : message.data.decode python.loads = .ok (log.event spelling) :=
    decode_eq_ok.mpr ⟨bytes, hdata, hloads⟩
  rw [dueOf, if_pos ⟨h.type, htruthy⟩, hdecode]
  show dueEvent events (log.event spelling) = _
  rw [dueEvent, eventBlock_event, topic0_event, dueCall, Option.map_map]
  cases log.topics <;> rfl

/-- The stream hands out these logs: a message carries the next of them, or is due nothing. -/
inductive HandsOut (events : Events String) (python : Surroundings) (spelling : Spelling) :
    List Message → List (Log String) → Prop
  | nil : HandsOut events python spelling [] []
  | log {message stream log logs} (hcarries : Carries python spelling message log)
      (hrest : HandsOut events python spelling stream logs) :
      HandsOut events python spelling (message :: stream) (log :: logs)
  | other {message stream logs} (hnone : dueOf events python message = none)
      (hrest : HandsOut events python spelling stream logs) :
      HandsOut events python spelling (message :: stream) logs

/-- What a stream is due is what its logs are. -/
theorem HandsOut.filterMap_dueOf {stream : List Message} {logs : List (Log String)}
    (h : HandsOut events python spelling stream logs) :
    stream.filterMap (dueOf events python) =
      (logs.filterMap (dueCall events)).map fun call => (call.1, call.2.event spelling) := by
  induction h with
  | nil => rfl
  | @log message stream log logs hcarries _ ih =>
    rw [List.filterMap_cons, List.filterMap_cons, hcarries.dueOf_eq]
    cases hdue : dueCall events log with
    | none => exact ih
    | some call =>
      rw [Option.map_some, List.map_cons, dueCall_log hdue]
      exact congrArg _ ih
  | other hnone _ ih =>
    rw [List.filterMap_cons, hnone]
    exact ih

/-- No message of a stream sets the first event: the envelope has no block number. -/
theorem body_of_unknown (calls : List (ProcessFunc × Json)) {message : Message}
    (htype : message.type = "message") :
    (Receiver.body events python ⟨none, calls⟩ message).1 = ⟨none, calls⟩ := by
  rw [Receiver.body, if_pos htype]
  rfl

/-- **The loop never leaves the unset state**: what is asked of it holds of no stream with
a message in it. -/
theorem first_event_not_set (events : Events String) (python : Surroundings) (spelling : Spelling)
    (stream : List Message) (logs : List (Log String))
    (hcarries : List.Forall₂ (Carries python spelling) stream logs) :
    ((∀ log ∈ logs.head?, (processUniswapEvents events python ⟨none, []⟩ (stream.take 1)).firstEvent =
          some (.number log.blockNumber)) ∧
        (processUniswapEvents events python ⟨none, []⟩ stream).calls =
          logs.filterMap fun log =>
            (dueCall events log).map fun call => (call.1, log.event spelling)) ↔
      stream = [] := by
  cases hcarries with
  | nil =>
    refine iff_of_true ⟨nofun, ?_⟩ rfl
    rw [processUniswapEvents, relisten_fst]
    rfl
  | @cons message log rest logs hfirst _ =>
    refine iff_of_false (fun ⟨hset, _⟩ => ?_) nofun
    have hset := hset log rfl
    rw [processUniswapEvents, relisten_fst, List.take_succ_cons, List.take_zero, handleAll_cons,
      body_of_unknown [] hfirst.type] at hset
    cases hset

end Loop

/-! ### One Sync log -/

/-- Reads every message as the Sync log of block 7. -/
def syncLog : Log String := ⟨.fill 1, 7, ["sync"], []⟩

def plainSpelling : Spelling := ⟨fun _ => "0x01", fun _ => "0x7", fun _ => "0x"⟩

def syncLoads : Surroundings :=
  ⟨fun _ => .ok (syncLog.event plainSpelling), fun _ => .ok 7, fun _ => none⟩

def syncMessage : Message := ⟨"message", .none, .bytes [0], .bytes [0]⟩

theorem syncMessage_carries : Carries syncLoads plainSpelling syncMessage syncLog :=
  ⟨rfl, [0], by decide, rfl, rfl⟩

def syncEvents : Events String := .ofList [("sync", .processSyncEvent)]

/-- It leaves the first event unset and meets no handler. -/
theorem first_event_missed : ¬∀ (events : Events String) (python : Surroundings) (spelling : Spelling)
    (stream : List Message) (logs : List (Log String)),
    List.Forall₂ (Carries python spelling) stream logs →
    (∀ log ∈ logs.head?, (processUniswapEvents events python ⟨none, []⟩ (stream.take 1)).firstEvent =
        some (.number log.blockNumber)) ∧
      (processUniswapEvents events python ⟨none, []⟩ stream).calls =
        logs.filterMap fun log =>
          (dueCall events log).map fun call => (call.1, log.event spelling) := by
  intro h
  obtain ⟨_, hcalls⟩ := h syncEvents syncLoads plainSpelling [syncMessage] [syncLog]
    (.cons syncMessage_carries .nil)
  rw [processUniswapEvents, relisten_fst, handleAll_cons, body_of_unknown [] rfl] at hcalls
  cases hcalls

theorem first_event_not_set_sync : ¬((∀ log ∈ [syncLog].head?,
      (processUniswapEvents syncEvents syncLoads ⟨none, []⟩ [syncMessage]).firstEvent =
        some (.number log.blockNumber)) ∧
    (processUniswapEvents syncEvents syncLoads ⟨none, []⟩ [syncMessage]).calls =
      [syncLog].filterMap fun log =>
        (dueCall syncEvents log).map fun call => (call.1, log.event plainSpelling)) := by
  intro h
  have hnone := (first_event_not_set syncEvents syncLoads plainSpelling [syncMessage] [syncLog]
    (.cons syncMessage_carries .nil)).mp h
  cases hnone

end CreamBots.App
