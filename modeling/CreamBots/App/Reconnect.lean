import CreamBots.App.EventLoop

/-! When the loop listens anew.

Whatever leaves `async for` is logged as an error of the subscription, and after a pause
the loop listens anew. The first topic is read before the inner `try`, whose `except
IndexError` is there to ignore anonymous events: so it is just these, among the events
that can be read at all, that make the loop reconnect
(`decodable_logs_reconnect_iff`, `anonymous_log_reconnects`). -/
namespace CreamBots.App
open Data Builders

/-- `event["params"]["result"]["topics"]`. -/
def Json.topics (event : Json) : Except PyError Json := do
  let result ← event.result
  result.getItem "topics"

variable (events : Events String) (python : Surroundings)

/-- The exceptions after which the loop reconnects. -/
def reconnects (s : Receiver) (messages : List Message) : List PyError :=
  (relisten (Receiver.body events python) s messages).2

/-- The data of the message are an event log: with a hexadecimal block number and with a
list of topics. -/
def CarriesEvent (message : Message) (topics : List Json) : Prop :=
  ∃ bytes event, message.data = .bytes bytes ∧ python.loads bytes = .ok event ∧
    (∃ eventBlock n, event.eventBlock = .ok eventBlock ∧ python.int16 eventBlock = .ok n) ∧
    event.topics = .ok (.array topics)

/-- The message is not of type `message`, or has no data, or carries an event. -/
def Readable (message : Message) : Prop :=
  message.type ≠ "message" ∨ message.data.truthy = false ∨ ∃ topics, CarriesEvent python message topics

/-- The message carries an event without topics. -/
def Anonymous (message : Message) : Prop :=
  message.type = "message" ∧ message.data.truthy = true ∧ CarriesEvent python message []

variable {events python}

theorem topic0_eq {event : Json} {topics : Json} (h : event.topics = .ok topics) :
    event.topic0 = topics.first := by
  obtain ⟨result, hresult, htopics⟩ := bind_eq_ok.mp h
  rw [Json.topic0, hresult]
  show (result.getItem "topics" >>= fun topics => topics.first) = _
  rw [htopics]
  rfl

/-- With no handler raising, a call raises nothing. -/
theorem call_snd (hraises : ∀ n, python.raises n = none) (s : Receiver) (processFunc : ProcessFunc)
    (event : Json) {eventBlock : Json} {n : Int} (hblock : python.int16 eventBlock = .ok n) :
    (s.call python processFunc event eventBlock).2 = none := by
  rw [Receiver.call, hraises, hblock]

/-- On an event that can be read, just the first topic can be missing. -/
theorem dispatch_snd (hraises : ∀ n, python.raises n = none) (s : Receiver) {message : Message}
    {topics : List Json} (h : CarriesEvent python message topics) :
    (s.dispatch events python message.data).2 = none ↔ topics ≠ [] := by
  obtain ⟨bytes, event, hdata, hloads, ⟨eventBlock, n, hblock, hint⟩, htopics⟩ := h
  have hread : python.readEvent message.data =
      (Json.array topics).first >>= fun topic0 => pure (event, eventBlock, topic0) := by
    rw [Surroundings.readEvent, hdata, RedisValue.decode, hloads]
    show (event.eventBlock >>= fun eventBlock => event.topic0 >>= fun topic0 =>
      pure (event, eventBlock, topic0)) = _
    rw [hblock, topic0_eq htopics]
    rfl
  rw [Receiver.dispatch, hread]
  cases topics with
  | nil => exact iff_of_false (Option.some_ne_none _) fun hne => hne rfl
  | cons topic0 rest =>
    have hfirst : ((Json.array (topic0 :: rest)).first >>= fun topic0 =>
        pure (event, eventBlock, topic0)) = .ok (event, eventBlock, topic0) := rfl
    rw [hfirst]
    refine iff_of_true ?_ (List.cons_ne_nil _ _)
    cases hfunc : processFunc events topic0 with
    | error e => simp only [hfunc]
    | ok processFunc =>
      simp only [hfunc]
      exact call_snd hraises s processFunc event hint

theorem CarriesEvent.topics_eq {message : Message} {topics topics' : List Json}
    (h : CarriesEvent python message topics) (h' : CarriesEvent python message topics') :
    topics = topics' := by
  obtain ⟨bytes, event, hdata, hloads, _, htopics⟩ := h
  obtain ⟨bytes', event', hdata', hloads', _, htopics'⟩ := h'
  rw [hdata] at hdata'
  cases hdata'
  rw [hloads] at hloads'
  cases hloads'
  rw [htopics] at htopics'
  cases htopics'
  rfl

/-- Once the first event is known a readable message raises just if it is anonymous. -/
theorem body_snd (hraises : ∀ n, python.raises n = none) {s : Receiver}
    (hknown : s.firstEvent ≠ none) {message : Message} (hreadable : Readable python message) :
    (s.body events python message).2 = none ↔ ¬Anonymous python message := by
  obtain ⟨firstEvent, hfirst⟩ := Option.ne_none_iff_exists'.mp hknown
  have hset : s.setFirstEvent message = .ok s := by rw [Receiver.setFirstEvent, hfirst]
  rw [Receiver.body, hset]
  by_cases htype : message.type = "message"
  · rw [if_pos htype]
    show (if message.data.truthy then s.dispatch events python message.data else (s, none)).2 = none ↔ _
    by_cases htruthy : message.data.truthy = true
    · rw [if_pos htruthy]
      rcases hreadable with hother | hempty | ⟨topics, hcarries⟩
      · exact absurd htype hother
      · rw [htruthy] at hempty
        cases hempty
      · rw [dispatch_snd hraises s hcarries]
        refine not_congr ⟨?_, fun hanonymous => hcarries.topics_eq hanonymous.2.2⟩
        intro hnil
        subst hnil
        exact ⟨htype, htruthy, hcarries⟩
    · rw [if_neg htruthy]
      exact iff_of_true rfl fun hanonymous => htruthy hanonymous.2.1
  · rw [if_neg htype]
    exact iff_of_true rfl fun hanonymous => htype hanonymous.1

/-- The first event stays known. -/
theorem firstEvent_body {s : Receiver} (message : Message) (hknown : s.firstEvent ≠ none) :
    (s.body events python message).1.firstEvent ≠ none := by
  obtain ⟨firstEvent, hfirst⟩ := Option.ne_none_iff_exists'.mp hknown
  rw [body_of_known s hfirst]
  exact hknown

/-- **The loop reconnects exactly if some event has no topics.** -/
theorem decodable_logs_reconnect_iff (events : Events String) (python : Surroundings)
    (hraises : ∀ n, python.raises n = none) (s : Receiver) (hknown : s.firstEvent ≠ none)
    (stream : List Message) (hreadable : ∀ message ∈ stream, Readable python message) :
    reconnects events python s stream = [] ↔ ∀ message ∈ stream, ¬Anonymous python message := by
  rw [reconnects, caught_eq_nil]
  have hbody : ∀ s : Receiver, s.firstEvent ≠ none → ∀ message ∈ stream,
      (s.body events python message).2 = none ↔ ¬Anonymous python message :=
    fun _ hs message hmem => body_snd hraises hs (hreadable message hmem)
  exact forEach_none_iff (fun _ message => firstEvent_body message) hbody hknown

/-! ### A log without topics -/

/-- Reads every message as a log of block 7 with these topics. -/
def loadsTopics (topics : List String) : Surroundings :=
  ⟨fun _ => .ok (Log.event plainSpelling ⟨.fill 1, 7, topics, []⟩), fun _ => .ok 7, fun _ => none⟩

theorem loadsTopics_carries (topics : List String) :
    CarriesEvent (loadsTopics topics) syncMessage (topics.map Json.string) :=
  ⟨[0], _, rfl, rfl, ⟨.string "0x7", 7, rfl, rfl⟩, rfl⟩

theorem loadsTopics_readable (topics : List String) :
    ∀ message ∈ [syncMessage], Readable (loadsTopics topics) message := by
  intro message hmem
  rw [List.mem_singleton.mp hmem]
  exact .inr (.inr ⟨_, loadsTopics_carries topics⟩)

/-- The `IndexError` is not the one that is ignored. -/
theorem anonymous_log_reconnects : ¬∀ (events : Events String) (python : Surroundings),
    (∀ n, python.raises n = none) → ∀ s : Receiver, s.firstEvent ≠ none →
    ∀ stream : List Message, (∀ message ∈ stream, Readable python message) →
      reconnects events python s stream = [] := by
  intro h
  have hnone := h .empty (loadsTopics []) (fun _ => rfl) ⟨some (.number 7), []⟩ (Option.some_ne_none _)
    [syncMessage] (loadsTopics_readable [])
  rw [reconnects, caught_eq_nil] at hnone
  cases hnone

/-- A log with an unknown first topic does not make it reconnect. -/
theorem decodable_logs_reconnect_iff_unknown :
    reconnects .empty (loadsTopics ["unknown"]) ⟨some (.number 7), []⟩ [syncMessage] = [] := by
  refine (decodable_logs_reconnect_iff .empty (loadsTopics ["unknown"]) (fun _ => rfl)
    ⟨some (.number 7), []⟩ (Option.some_ne_none _) [syncMessage] (loadsTopics_readable _)).mpr ?_
  intro message hmem hanonymous
  rw [List.mem_singleton.mp hmem] at hanonymous
  cases (loadsTopics_carries ["unknown"]).topics_eq hanonymous.2.2

end CreamBots.App
