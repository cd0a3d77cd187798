import CreamBots.App.EventLoop
import CreamBots.Data.Listen
import Mathlib.Data.List.Infix
import Mathlib.Data.List.TakeWhile
import Mathlib.Logic.Function.Basic

/-! The state of the app, as the bots follow it.

`BootstrapService.start` sets attributes of the bot's state to what the messages on
`cream_app_state` say, each to the last value that it was given. Its `try` stands around
the loop and not in it or under a `while True`, as those of the other listeners do: with
the first message that cannot be received, decoded or applied it is over, and the bot
keeps what it was told until then (`app_state_followed_iff`, `app_state_lost`). -/
namespace CreamBots.App
open Data

namespace Json

/-- `key in value`. -/
def contains : Json → String → Except PyError Bool
  | object fields, key => .ok (Dict.lastValue? fields key).isSome
  | array items, key => .ok (items.any fun item =>
      match item with
      | string s => decide (s = key)
      | _ => false)
  | string s, key => .ok (decide (key.toList <:+: s.toList))
  | _, _ => .error .typeError

/-- For a value that is not a dictionary: it cannot be indexed by a key that is in it, and not
even asked for the key if it is no container. -/
def unusableAt (value : Json) (key : String) : Bool :=
  match value.contains key with
  | .ok isIn => isIn
  | .error _ => true

end Json

/-- What an attribute of the bot's state is set to: a value from a message, or something
else. -/
inductive Attribute where
  | json (value : Json)
  | other (object : Nat)

/-- The attributes of `bot_state`, by name. -/
abbrev BotAttributes := String → Option Attribute

/-- What `pubsub.listen()` comes to, one message after the other: it may raise. -/
abbrev Received := Except PyError Message

def relevantKeys : List String :=
  ["average_blocktime", "base_fee_last", "base_fee_next", "chain_id", "chain_name", "first_block",
    "first_event", "newest_block", "newest_block_timestamp", "live", "node", "watching_blocks",
    "watching_events"]

/-! ### start and update_bot_state -/

namespace BotAttributes

/-- `setattr(self.bot_state, key, app_state[key])`, if the key is in `app_state`. -/
def setKey (appState : Json) (s : BotAttributes) (key : String) : BotAttributes × Option PyError :=
  match appState.contains key with
  | .error e => (s, some e)
  | .ok false => (s, none)
  | .ok true =>
    match appState.getItem key with
    | .error e => (s, some e)
    | .ok value => (Function.update s key (some (.json value)), none)

def updateBotState (s : BotAttributes) (appState : Json) : BotAttributes × Option PyError :=
  match forEach (setKey appState) s relevantKeys with
  | (s, none) => (s, none)
  | (s, some (e, _)) => (s, some e)

section Start
variable (loads : List UInt8 → Except PyError Json)

/-- The body of `async for`: the state after it and what it raises. -/
def body (s : BotAttributes) : Received → BotAttributes × Option PyError
  | .error e => (s, some e)
  | .ok message =>
    if message.type = "message" then
      match message.data.decode loads with
      | .error e => (s, some e)
      | .ok appState => s.updateBotState appState
    else (s, none)

/-- What is raised is logged, and then the service unsubscribes. -/
def start (s : BotAttributes) (stream : List Received) : BotAttributes := (forEach (body loads) s stream).1

end Start
end BotAttributes

/-! ### What the messages say -/

section Stream
variable (loads : List UInt8 → Except PyError Json)

/-- The state of the app in a decodable message. -/
def appStateOf : Received → Option Json
  | .error _ => none
  | .ok message => if message.type = "message" then (message.data.decode loads).toOption else none

/-- The value that a message has for a key. -/
def valueIn (key : String) (received : Received) : Option Json :=
  match appStateOf loads received with
  | some (.object fields) => Dict.lastValue? fields key
  | _ => none

/-- The value for a key in the last message that contains it. -/
def lastValueIn (key : String) (stream : List Received) : Option Json :=
  (stream.filterMap (valueIn loads key)).getLast?

/-- The service ends with this message: it raises while it is received, is undecodable, or
what it decodes to is not a dictionary and cannot be used as one. -/
def isBad : Received → Bool
  | .error _ => true
  | .ok message =>
    if message.type = "message" then
      match message.data.decode loads with
      | .error _ => true
      | .ok (.object _) => false
      | .ok appState => relevantKeys.any appState.unusableAt
    else false

/-- The attributes are what they were, but for the relevant keys that the stream has a value
for: these have the last one. -/
def Follows (stream : List Received) (before after : BotAttributes) : Prop :=
  ∀ key, after key =
    if key ∈ relevantKeys then ((lastValueIn loads key stream).map .json).or (before key) else before key

variable {loads}

theorem follows_nil (s : BotAttributes) : Follows loads [] s s := by
  intro key
  simp [lastValueIn]

theorem lastValueIn_append (key : String) (stream later : List Received) :
    lastValueIn loads key (stream ++ later) =
      (lastValueIn loads key later).or (lastValueIn loads key stream) := by
  rw [lastValueIn, List.filterMap_append, List.getLast?_append]
  rfl

theorem Follows.append {stream later : List Received} {before middle after : BotAttributes}
    (h : Follows loads stream before middle) (h' : Follows loads later middle after) :
    Follows loads (stream ++ later) before after := by
  intro key
  rw [h' key, h key, lastValueIn_append]
  by_cases hkey : key ∈ relevantKeys
  · simp only [if_pos hkey]
    cases lastValueIn loads key later <;> rfl
  · simp only [if_neg hkey]

end Stream

/-! ### One message -/

namespace BotAttributes
variable {loads : List UInt8 → Except PyError Json}

/-- Of a dictionary every relevant key is set that it has. -/
theorem forEach_object (fields : List (String × Json)) (keys : List String) (s : BotAttributes) :
    forEach (setKey (.object fields)) s keys = (fun key =>
      if key ∈ keys then ((Dict.lastValue? fields key).map .json).or (s key) else s key, none) := by
  induction keys generalizing s with
  | nil => simp [forEach]
  | cons first rest ih =>
    have hfirst : setKey (.object fields) s first = (fun key =>
        if key = first then ((Dict.lastValue? fields key).map .json).or (s key) else s key, none) := by
      rw [setKey, Json.contains, Json.getItem]
      cases hvalue : Dict.lastValue? fields first with
      | none =>
        refine Prod.ext (funext fun key => ?_) rfl
        by_cases hkey : key = first <;> simp [hkey, hvalue]
      | some value =>
        refine Prod.ext (funext fun key => ?_) rfl
        by_cases hkey : key = first <;> simp [hkey, hvalue]
    rw [forEach, hfirst]
    refine (ih _).trans (Prod.ext (funext fun key => ?_) rfl)
    by_cases hkey : key = first
    · subst hkey
      cases hvalue : Dict.lastValue? fields key <;> simp [hvalue]
    · simp [hkey]

/-- Anything else sets nothing, and cannot be used if a key is found in it or cannot be
looked for. -/
theorem forEach_other {appState : Json} {raises : String → Bool} {s : BotAttributes}
    (hquiet : ∀ key, raises key = false → setKey appState s key = (s, none))
    (hraises : ∀ key, raises key = true → ∃ e, setKey appState s key = (s, some e))
    (keys : List String) :
    (keys.any raises = false → forEach (setKey appState) s keys = (s, none)) ∧
      (keys.any raises = true → ∃ e rest, forEach (setKey appState) s keys = (s, some (e, rest))) := by
  induction keys with
  | nil => exact ⟨fun _ => rfl, fun h => by cases h⟩
  | cons first rest ih =>
    rw [List.any_cons, forEach]
    cases hfirst : raises first with
    | true =>
      obtain ⟨e, he⟩ := hraises first hfirst
      rw [he]
      exact ⟨by simp, fun _ => ⟨e, rest, rfl⟩⟩
    | false =>
      rw [hquiet first hfirst]
      exact ih

theorem updateBotState_object (fields : List (String × Json)) (s : BotAttributes) :
    s.updateBotState (.object fields) = (fun key => if key ∈ relevantKeys then
      ((Dict.lastValue? fields key).map .json).or (s key) else s key, none) := by
  rw [updateBotState, forEach_object]

/-- No value of any other kind is indexed by a text. -/
theorem setKey_other {appState : Json} (hother : ∀ fields, appState ≠ .object fields)
    (s : BotAttributes) (key : String) :
    (appState.unusableAt key = false → setKey appState s key = (s, none)) ∧
      (appState.unusableAt key = true → ∃ e, setKey appState s key = (s, some e)) := by
  have hitem : appState.getItem key = .error .typeError := by
    cases appState with
    | object fields => exact absurd rfl (hother fields)
    | _ => rfl
  rw [setKey, hitem, Json.unusableAt]
  rcases appState.contains key with e | _ | _
  · exact ⟨by simp, fun _ => ⟨e, rfl⟩⟩
  · exact ⟨fun _ => rfl, by simp⟩
  · exact ⟨by simp, fun _ => ⟨_, rfl⟩⟩

theorem updateBotState_other {appState : Json} (hother : ∀ fields, appState ≠ .object fields)
    (s : BotAttributes) :
    (relevantKeys.any appState.unusableAt = false → s.updateBotState appState = (s, none)) ∧
      (relevantKeys.any appState.unusableAt = true → ∃ e, s.updateBotState appState = (s, some e)) := by
  obtain ⟨hquiet, hraises⟩ := forEach_other (fun key => (setKey_other hother s key).1)
    (fun key => (setKey_other hother s key).2) relevantKeys
  rw [updateBotState]
  refine ⟨fun h => ?_, fun h => ?_⟩
  · rw [hquiet h]
  · obtain ⟨e, rest, he⟩ := hraises h
    rw [he]
    exact ⟨e, rfl⟩

/-- A bad message changes nothing and raises. -/
theorem body_bad (s : BotAttributes) (received : Received) (hbad : isBad loads received = true) :
    ∃ e, s.body loads received = (s, some e) := by
  cases received with
  | error e => exact ⟨e, rfl⟩
  | ok message =>
    rw [isBad] at hbad
    rw [body]
    by_cases htype : message.type = "message"
    · rw [if_pos htype] at hbad ⊢
      cases hdecode : message.data.decode loads with
      | error e => exact ⟨e, rfl⟩
      | ok appState =>
        rw [hdecode] at hbad
        cases appState with
        | object fields => cases hbad
        | _ => exact (updateBotState_other (by simp) s).2 hbad
    · rw [if_neg htype] at hbad
      cases hbad

/-- Any other is followed, and raises nothing. -/
theorem body_good (s : BotAttributes) (received : Received) (hgood : isBad loads received = false) :
    (s.body loads received).2 = none ∧ Follows loads [received] s (s.body loads received).1 := by
  have hlast : ∀ key, lastValueIn loads key [received] = valueIn loads key received := by
    intro key
    rw [lastValueIn]
    cases hvalue : valueIn loads key received <;> simp [hvalue]
  have hsame : (∀ key, valueIn loads key received = none) → Follows loads [received] s s := by
    intro hnone key
    rw [hlast, hnone]
    simp
  cases received with
  | error e => cases hgood
  | ok message =>
    rw [isBad] at hgood
    rw [body]
    by_cases htype : message.type = "message"
    · rw [if_pos htype] at hgood ⊢
      cases hdecode : message.data.decode loads with
      | error e =>
        rw [hdecode] at hgood
        cases hgood
      | ok appState =>
        rw [hdecode] at hgood
        have happState : appStateOf loads (.ok message) = some appState := by
          rw [appStateOf, if_pos htype, hdecode]
          rfl
        cases appState with
        | object fields =>
          dsimp only
          rw [updateBotState_object]
          refine ⟨rfl, fun key => ?_⟩
          rw [hlast, valueIn, happState]
        | _ =>
          have hquiet := (updateBotState_other (by simp) s).1 hgood
          dsimp only
          rw [hquiet]
          refine ⟨rfl, hsame fun key => ?_⟩
          rw [valueIn, happState]
    · rw [if_neg htype]
      refine ⟨rfl, hsame fun key => ?_⟩
      rw [valueIn, appStateOf, if_neg htype]

/-! ### The stream -/

theorem follows_handleAll (stream : List Received) : ∀ s : BotAttributes,
    (∀ received ∈ stream, isBad loads received = false) →
      Follows loads stream s (handleAll (body loads) s stream) := by
  induction stream with
  | nil => exact fun s _ => follows_nil s
  | cons first rest ih =>
    intro s hgood
    obtain ⟨hfirst, hrest⟩ := List.forall_mem_cons.mp hgood
    exact (body_good s first hfirst).2.append (ih _ hrest)

/-- Up to the first bad message the stream is followed. -/
theorem follows_start (loads : List UInt8 → Except PyError Json) (s : BotAttributes)
    (stream : List Received) :
    Follows loads (stream.takeWhile fun received => !isBad loads received) s (s.start loads stream) := by
  rw [start, forEach_fst (fun s received h => (body_good s received h).1) body_bad]
  refine follows_handleAll _ s fun received hmem => ?_
  have hgood := List.mem_takeWhile_imp hmem
  rwa [Bool.not_eq_true'] at hgood

end BotAttributes

/-- **The app state is followed exactly if what comes after the first bad message leaves
every relevant key at the value it had before it.** -/
theorem app_state_followed_iff (loads : List UInt8 → Except PyError Json) (s : BotAttributes)
    (stream : List Received) :
    Follows loads stream s (s.start loads stream) ↔
      ∀ key ∈ relevantKeys, ∀ value,
        lastValueIn loads key (stream.dropWhile fun received => !isBad loads received) = some value →
        ((lastValueIn loads key (stream.takeWhile fun received => !isBad loads received)).map .json).or
          (s key) = some (.json value) := by
  have hstart := BotAttributes.follows_start loads s stream
  have hsplit := List.takeWhile_append_dropWhile (p := fun received => !isBad loads received) (l := stream)
  generalize stream.takeWhile (fun received => !isBad loads received) = before at hstart hsplit ⊢
  generalize stream.dropWhile (fun received => !isBad loads received) = rest at hsplit ⊢
  refine forall_congr' fun key => ?_
  rw [hstart key, ← hsplit, lastValueIn_append]
  by_cases hkey : key ∈ relevantKeys
  · simp only [hkey, true_imp_iff]
    cases lastValueIn loads key rest with
    | none => simp
    | some value => simp
  · simp [hkey]

/-! ### A message that cannot be decoded -/

/-- The byte 0 stands for a bot that is not live, 1 for one that is. -/
def loadsLive : List UInt8 → Except PyError Json
  | [0] => .ok (.object [("live", .bool false)])
  | [1] => .ok (.object [("live", .bool true)])
  | _ => .error .valueError

def appStateMessage (b : UInt8) : Received := .ok ⟨"message", .none, .none, .bytes [b]⟩

/-- The bot is told that it is live after that message, and does not hear it. -/
theorem app_state_lost : ¬∀ (loads : List UInt8 → Except PyError Json) (s : BotAttributes)
    (stream : List Received), Follows loads stream s (s.start loads stream) := by
  intro h
  have hlive := h loadsLive (fun _ => none) [appStateMessage 0, appStateMessage 2, appStateMessage 1] "live"
  have hkept : BotAttributes.start loadsLive (fun _ => none)
      [appStateMessage 0, appStateMessage 2, appStateMessage 1] "live" =
        some (.json (.bool false)) := rfl
  have hlast : lastValueIn loadsLive "live"
      [appStateMessage 0, appStateMessage 2, appStateMessage 1] = some (.bool true) := rfl
  rw [hkept, if_pos (by decide), hlast] at hlive
  cases hlive

end CreamBots.App
