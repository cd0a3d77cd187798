import Mathlib.Data.List.Basic

/-! Publish and subscribe, as one client sees a channel.

A message is delivered to a client exactly if it is published after the client has
subscribed; what is delivered waits for the client and is received in the order of
publication. A `Channel` keeps the messages in these three groups, so that nothing
can be received that was missed, and what has been published is the three of them in
order. What a client misses is settled when it subscribes (`missed_publish`), and
whether it misses anything of interest is all that decides whether it gets everything
of interest (`delivered_eq_published`). -/
namespace CreamBots.Data

inductive Channel (α : Type) where
  | unsubscribed (missed : List α)
  | subscribed (missed received waiting : List α)

namespace Channel
variable {α β : Type}

/-- A channel nothing was published on. -/
def idle : Channel α := .unsubscribed []

def missed : Channel α → List α
  | .unsubscribed missed => missed
  | .subscribed missed _ _ => missed

def received : Channel α → List α
  | .unsubscribed _ => []
  | .subscribed _ received _ => received

def waiting : Channel α → List α
  | .unsubscribed _ => []
  | .subscribed _ _ waiting => waiting

def isSubscribed : Channel α → Bool
  | .unsubscribed _ => false
  | .subscribed .. => true

/-- All messages, in the order of publication. -/
def published (c : Channel α) : List α := c.missed ++ (c.received ++ c.waiting)

def publish (m : α) : Channel α → Channel α
  | .unsubscribed missed => .unsubscribed (missed ++ [m])
  | .subscribed missed received waiting => .subscribed missed received (waiting ++ [m])

/-- A client subscribes once. -/
def subscribe : Channel α → Option (Channel α)
  | .unsubscribed missed => some (.subscribed missed [] [])
  | .subscribed .. => none

/-- The next message, if one is waiting. -/
def receive : Channel α → Option (α × Channel α)
  | .subscribed missed received (m :: waiting) =>
    some (m, .subscribed missed (received ++ [m]) waiting)
  | _ => none

/-! ### What each operation does to the messages -/

@[simp] theorem received_publish (m : α) (c : Channel α) : (c.publish m).received = c.received := by
  cases c <;> rfl

@[simp] theorem isSubscribed_publish (m : α) (c : Channel α) :
    (c.publish m).isSubscribed = c.isSubscribed := by
  cases c <;> rfl

@[simp] theorem published_publish (m : α) (c : Channel α) :
    (c.publish m).published = c.published ++ [m] := by
  cases c with
  | unsubscribed missed => simp [publish, published, Channel.missed, received, waiting]
  | subscribed missed received waiting =>
    simp [publish, published, Channel.missed, Channel.received, Channel.waiting]

theorem waiting_publish (m : α) {c : Channel α} (h : c.isSubscribed = true) :
    (c.publish m).waiting = c.waiting ++ [m] := by
  cases c with
  | unsubscribed missed => cases h
  | subscribed missed received waiting => rfl

/-- Only what is published before the subscription is missed. -/
theorem missed_publish (m : α) (c : Channel α) :
    (c.publish m).missed = if c.isSubscribed then c.missed else c.missed ++ [m] := by
  cases c <;> rfl

theorem subscribe_eq_some {c c' : Channel α} (h : c.subscribe = some c') :
    c.isSubscribed = false ∧ c' = .subscribed c.missed [] [] := by
  cases c with
  | unsubscribed missed => exact ⟨rfl, (Option.some.inj h).symm⟩
  | subscribed missed received waiting => cases h

theorem receive_eq_some {c c' : Channel α} {m : α} (h : c.receive = some (m, c')) :
    ∃ waiting, c = .subscribed c.missed c.received (m :: waiting) ∧
      c' = .subscribed c.missed (c.received ++ [m]) waiting := by
  cases c with
  | unsubscribed missed => cases h
  | subscribed missed received waiting =>
    cases waiting with
    | nil => cases h
    | cons next waiting =>
      obtain ⟨rfl, rfl⟩ := Prod.mk.inj (Option.some.inj h)
      exact ⟨waiting, rfl, rfl⟩

theorem isSubscribed_receive {c c' : Channel α} {m : α} (h : c.receive = some (m, c')) :
    c'.isSubscribed = c.isSubscribed := by
  obtain ⟨waiting, hc, rfl⟩ := receive_eq_some h
  rw [hc]
  rfl

theorem published_unsubscribed {c : Channel α} (h : c.isSubscribed = false) :
    c.published = c.missed ∧ c.received = [] ∧ c.waiting = [] := by
  cases c with
  | unsubscribed missed => exact ⟨List.append_nil missed, rfl, rfl⟩
  | subscribed missed received waiting => cases h

theorem published_subscribe {c c' : Channel α} (h : c.subscribe = some c') :
    c'.published = c.published ∧ c'.missed = c.missed ∧ c'.received = c.received := by
  obtain ⟨hc, rfl⟩ := subscribe_eq_some h
  obtain ⟨hpublished, hreceived, _⟩ := published_unsubscribed hc
  rw [hpublished, hreceived]
  exact ⟨List.append_nil c.missed, rfl, rfl⟩

theorem published_receive {c c' : Channel α} {m : α} (h : c.receive = some (m, c')) :
    c'.published = c.published ∧ c'.missed = c.missed ∧ c'.received = c.received ++ [m] ∧
      c.waiting = m :: c'.waiting := by
  obtain ⟨waiting, hc, rfl⟩ := receive_eq_some h
  rw [hc]
  refine ⟨?_, rfl, rfl, rfl⟩
  simp [published, Channel.missed, received, Channel.waiting]

/-- What is waiting can be received. -/
theorem exists_receive {c : Channel α} {m : α} {rest : List α} (h : c.waiting = m :: rest) :
    ∃ c', c.receive = some (m, c') := by
  cases c with
  | unsubscribed missed => cases h
  | subscribed missed received waiting =>
    cases h
    exact ⟨_, rfl⟩

/-- What is delivered is all there is, of what a selection keeps, exactly if the
selection keeps nothing that was missed. -/
theorem delivered_eq_published (select : α → Option β) (c : Channel α) :
    (c.received ++ c.waiting).filterMap select = c.published.filterMap select ↔
      ∀ m ∈ c.missed, select m = none := by
  rw [published, List.filterMap_append (l := c.missed), ← List.filterMap_eq_nil_iff]
  refine ⟨fun h => List.self_eq_append_left.mp h, fun h => ?_⟩
  rw [h, List.nil_append]

end Channel
end CreamBots.Data
