import CreamBots.App.CallbackReport
import CreamBots.Data.PubSub

/-! The callback bot.

`CallbackBot.run` gathers two services that share the bot's state: the bootstrap service
follows the state of the app, and the transaction service waits for `live`, subscribes to
the pending transactions and reports those that go to an aggregator. They take turns at
their `await`s in any order. Neither disturbs the other: the attributes are those of the
bootstrap service alone, and what is published from the subscription on is handled in order
(`callback_bot_run`). A report is of a transaction that passed cleaning, and states the
block after the newest that the bot was told of (`reports_follow_app_state`). -/
namespace CreamBots.App
open Data

/-! ### The two services -/

/-- The bot: its bootstrap service while that is running, and its transaction service, which
may have seen that the bot is live, with the channel of the pending transactions. -/
structure CallbackBot where
  attributes : BotAttributes
  bootstrapping : Bool
  sawLive : Bool
  channel : Channel Message
  pending : PendingTransactions
  log : List LogLine

namespace CallbackBot

/-- Something happens: the bootstrap service receives a message, a pending transaction is
published, the transaction service looks whether the bot is live, it subscribes, or it
receives the next message. -/
inductive Turn where
  | appState (received : Received)
  | publish (message : Message)
  | poll
  | subscribe
  | receive

/-- No message on `cream_app_state` has been received. -/
def start (attributes : BotAttributes) : CallbackBot :=
  ⟨attributes, true, false, .idle, ⟨∅, []⟩, []⟩

section Run
variable (loads : List UInt8 → Except PyError Json) (python : TransactionSurroundings)
  (aggregators : Aggregators)

/-- The transaction that a message has `process_transaction` called with. -/
def processed (s : PendingTransactions) (message : Message) : Option Transaction :=
  (s.handleMessage python message).1.toOption.join

def receiveAppState (w : CallbackBot) (received : Received) : CallbackBot :=
  if w.bootstrapping then
    match w.attributes.body loads received with
    | (attributes, none) => {w with attributes}
    | (attributes, some _) => {w with attributes, bootstrapping := false}
  else w

/-- `while not self.bot_state.live`. -/
def poll (w : CallbackBot) : CallbackBot :=
  if w.attributes.isLive python.number then {w with sawLive := true} else w

/-- What comes after that loop, once. -/
def subscribe (w : CallbackBot) : CallbackBot :=
  if w.sawLive then
    match w.channel.subscribe with
    | none => w
    | some channel => {w with channel}
  else w

/-- What is logged for a message. -/
def logged (w : CallbackBot) (message : Message) : List LogLine :=
  match processed python w.pending message with
  | none => []
  | some transaction => (processTransaction python aggregators w.attributes transaction).1

def receive (w : CallbackBot) : CallbackBot :=
  match w.channel.receive with
  | none => w
  | some (message, channel) => {w with
      channel
      pending := (w.pending.body (servedBy python aggregators w.attributes) message).1
      log := w.log ++ w.logged python aggregators message}

def step (w : CallbackBot) : Turn → CallbackBot
  | .appState received => w.receiveAppState loads received
  | .publish message => {w with channel := w.channel.publish message}
  | .poll => w.poll python
  | .subscribe => w.subscribe
  | .receive => w.receive python aggregators

def run (w : CallbackBot) (turns : List Turn) : CallbackBot :=
  turns.foldl (step loads python aggregators) w

end Run

/-- What the bootstrap service receives. -/
def appStates (turns : List Turn) : List Received :=
  turns.filterMap fun turn =>
    match turn with
    | .appState received => some received
    | _ => none

/-- What is published on the channel. -/
def transactions (turns : List Turn) : List Message :=
  turns.filterMap fun turn =>
    match turn with
    | .publish message => some message
    | _ => none

section Lemmas
variable {loads : List UInt8 → Except PyError Json} {python : TransactionSurroundings}
  {aggregators : Aggregators} {w : CallbackBot}

theorem run_cons (turn : Turn) (rest : List Turn) : w.run loads python aggregators (turn :: rest) =
    (w.step loads python aggregators turn).run loads python aggregators rest := rfl

theorem run_append (before after : List Turn) : w.run loads python aggregators (before ++ after) =
    (w.run loads python aggregators before).run loads python aggregators after := List.foldl_append

theorem appStates_append (before after : List Turn) :
    appStates (before ++ after) = appStates before ++ appStates after := List.filterMap_append ..

theorem transactions_append (before after : List Turn) :
    transactions (before ++ after) = transactions before ++ transactions after := List.filterMap_append ..

/-- What `process_transaction` raises is not seen in the transactions that have failed. -/
theorem body_fst (s : PendingTransactions) (attributes : BotAttributes) (message : Message) :
    (s.body (servedBy python aggregators attributes) message).1 = (s.body python message).1 := by
  rw [PendingTransactions.body_fst, PendingTransactions.body_fst]
  rfl

/-! ### The bootstrap service -/

/-- What becomes of the attributes if these messages are still to come. -/
def following (loads : List UInt8 → Except PyError Json) (w : CallbackBot) (later : List Received) :
    BotAttributes :=
  if w.bootstrapping then w.attributes.start loads later else w.attributes

theorem following_receiveAppState (received : Received) (later : List Received) :
    (w.receiveAppState loads received).following loads later = w.following loads (received :: later) := by
  rw [receiveAppState, following, following]
  by_cases hrunning : w.bootstrapping = true
  · rw [if_pos hrunning, if_pos hrunning, BotAttributes.start, BotAttributes.start, forEach]
    cases w.attributes.body loads received with
    | mk attributes raised =>
      cases raised with
      | none => simp [hrunning]
      | some e => simp
  · simp [hrunning]

/-- The transaction service does nothing to it. -/
theorem following_step (turn : Turn) (later : List Received) :
    (w.step loads python aggregators turn).following loads later =
      w.following loads (appStates [turn] ++ later) := by
  cases turn with
  | appState received => exact following_receiveAppState received later
  | publish message => rfl
  | poll =>
    simp only [step, poll]
    split
    · rfl
    · rfl
  | subscribe =>
    simp only [step, subscribe]
    split
    · cases w.channel.subscribe <;> rfl
    · rfl
  | receive =>
    simp only [step, receive]
    cases w.channel.receive <;> rfl

/-- The attributes are what the bootstrap service alone would make of them. -/
theorem following_run (turns : List Turn) : ∀ w : CallbackBot,
    (w.run loads python aggregators turns).attributes = w.following loads (appStates turns) := by
  induction turns with
  | nil =>
    intro w
    rw [following]
    split
    · rfl
    · rfl
  | cons turn rest ih =>
    intro w
    rw [run_cons, ih, following_step, ← appStates_append]
    rfl

/-! ### The transaction service -/

/-- Its part of the bot. -/
def transactionService (w : CallbackBot) : Channel Message × PendingTransactions × List LogLine :=
  (w.channel, w.pending, w.log)

/-- The bootstrap service does nothing to it. -/
theorem receiveAppState_frame (received : Received) :
    (w.receiveAppState loads received).transactionService = w.transactionService ∧
      (w.receiveAppState loads received).sawLive = w.sawLive := by
  rw [receiveAppState]
  split
  · split
    · exact ⟨rfl, rfl⟩
    · exact ⟨rfl, rfl⟩
  · exact ⟨rfl, rfl⟩

variable (loads python aggregators) in
/-- Not subscribed, it misses what is published. -/
theorem step_unsubscribed {missed : List Message} (turn : Turn) (h : w.channel = .unsubscribed missed)
    (hturn : turn = .subscribe → w.sawLive = false) :
    (w.step loads python aggregators turn).transactionService =
      (.unsubscribed (missed ++ transactions [turn]), w.pending, w.log) := by
  have hsame : w.transactionService = (.unsubscribed (missed ++ []), w.pending, w.log) := by
    rw [transactionService, h, List.append_nil]
  cases turn with
  | appState received => exact (receiveAppState_frame received).1.trans hsame
  | publish message =>
    simp only [step, h]
    rfl
  | poll =>
    simp only [step, poll]
    split
    · exact hsame
    · exact hsame
  | subscribe =>
    simp only [step, subscribe, hturn rfl]
    exact hsame
  | receive =>
    simp only [step, receive, h]
    exact hsame

variable (loads python aggregators) in
/-- Subscribed, it has what is published wait, or handles what has waited longest. -/
theorem step_subscribed {missed received waiting : List Message} (turn : Turn)
    (h : w.channel = .subscribed missed received waiting) :
    (w.step loads python aggregators turn).transactionService =
        (.subscribed missed received (waiting ++ transactions [turn]), w.pending, w.log) ∨
      turn = .receive ∧ ∃ message rest, waiting = message :: rest ∧
        (w.step loads python aggregators turn).transactionService =
          (.subscribed missed (received ++ [message]) rest, (w.pending.body python message).1,
            w.log ++ w.logged python aggregators message) := by
  have hsame : w.transactionService =
      (.subscribed missed received (waiting ++ []), w.pending, w.log) := by
    rw [transactionService, h, List.append_nil]
  cases turn with
  | appState message => exact .inl ((receiveAppState_frame message).1.trans hsame)
  | publish message =>
    simp only [step, h]
    exact .inl rfl
  | poll =>
    simp only [step, poll]
    split
    · exact .inl hsame
    · exact .inl hsame
  | subscribe =>
    simp only [step, subscribe, h, Channel.subscribe]
    split
    · exact .inl hsame
    · exact .inl hsame
  | receive =>
    cases waiting with
    | nil =>
      simp only [step, receive, h]
      exact .inl hsame
    | cons message rest =>
      refine .inr ⟨rfl, message, rest, rfl, ?_⟩
      simp only [step, receive, h, Channel.receive, body_fst]
      rfl

theorem step_sawLive (turn : Turn) : (w.step loads python aggregators turn).sawLive = true ↔
    w.sawLive = true ∨ turn = .poll ∧ w.attributes.isLive python.number = true := by
  cases turn with
  | appState received => simp [step, (receiveAppState_frame received).2]
  | publish message => simp [step]
  | poll =>
    simp only [step, poll]
    split <;> simp_all
  | subscribe =>
    simp only [step, subscribe]
    split
    · cases w.channel.subscribe <;> simp
    · simp
  | receive =>
    simp only [step, receive]
    cases w.channel.receive <;> simp

/-- It has seen that the bot is live if the bot was when it looked. -/
theorem sawLive_run (turns : List Turn) : ∀ w : CallbackBot,
    (w.run loads python aggregators turns).sawLive = true ↔ w.sawLive = true ∨
      ∃ before after, turns = before ++ .poll :: after ∧
        (w.run loads python aggregators before).attributes.isLive python.number = true := by
  induction turns with
  | nil =>
    intro w
    simp [run]
  | cons turn rest ih =>
    intro w
    rw [run_cons, ih, step_sawLive, or_assoc]
    refine or_congr_right ?_
    constructor
    · intro h
      rcases h with ⟨rfl, hlive⟩ | ⟨before, after, rfl, hlive⟩
      · exact ⟨[], rest, rfl, hlive⟩
      · exact ⟨turn :: before, after, rfl, hlive⟩
    · intro h
      obtain ⟨before, after, hsplit, hlive⟩ := h
      cases before with
      | nil =>
        cases hsplit
        exact .inl ⟨rfl, hlive⟩
      | cons _ before =>
        cases hsplit
        exact .inr ⟨before, after, rfl, hlive⟩

variable (loads python aggregators) in
/-- Subscribed, it misses nothing more and handles what it receives in order. -/
theorem subscribed_run (turns : List Turn) :
    ∀ {w : CallbackBot} {missed received waiting : List Message},
    w.channel = .subscribed missed received waiting →
    ∃ handled left, (w.run loads python aggregators turns).channel =
        .subscribed missed (received ++ handled) left ∧
      handled ++ left = waiting ++ transactions turns ∧
      (w.run loads python aggregators turns).pending =
        w.pending.processPendingTransactions python handled := by
  induction turns with
  | nil =>
    intro w missed received waiting h
    refine ⟨[], waiting, ?_, (List.append_nil _).symm, ?_⟩
    · rw [List.append_nil]
      exact h
    · rw [PendingTransactions.processPendingTransactions, relisten_fst, handleAll_nil]
      rfl
  | cons turn rest ih =>
    intro w missed received waiting h
    have htransactions : transactions (turn :: rest) = transactions [turn] ++ transactions rest :=
      transactions_append [turn] rest
    rw [run_cons, htransactions]
    rcases step_subscribed loads python aggregators turn h with
      hnext | ⟨rfl, message, waiting', rfl, hnext⟩
    · obtain ⟨handled, left, hchannel, hall, hpending⟩ := ih (congrArg Prod.fst hnext)
      refine ⟨handled, left, hchannel, ?_, ?_⟩
      · rw [hall, List.append_assoc]
      · rw [hpending]
        exact congrArg (PendingTransactions.processPendingTransactions python · handled)
          (congrArg (fun s => s.2.1) hnext)
    · obtain ⟨handled, left, hchannel, hall, hpending⟩ := ih (congrArg Prod.fst hnext)
      refine ⟨message :: handled, left, ?_, congrArg (message :: ·) hall, ?_⟩
      · rw [hchannel, List.append_assoc]
        rfl
      · rw [hpending, ← List.singleton_append, PendingTransactions.process_append,
          PendingTransactions.process_singleton]
        exact congrArg (PendingTransactions.processPendingTransactions python · handled)
          (congrArg (fun s => s.2.1) hnext)

/-- It misses what is published until it subscribes, which it does once it has seen that the
bot is live. -/
theorem unsubscribed_run (turns : List Turn) : ∀ {w : CallbackBot} {missed : List Message},
    w.channel = .unsubscribed missed →
    ((w.run loads python aggregators turns).transactionService =
        (.unsubscribed (missed ++ transactions turns), w.pending, w.log) ∧
      ∀ before after, turns = before ++ .subscribe :: after →
        (w.run loads python aggregators before).sawLive = false) ∨
    ∃ before after, turns = before ++ .subscribe :: after ∧
      (w.run loads python aggregators before).sawLive = true ∧
      (w.run loads python aggregators (before ++ [.subscribe])).transactionService =
        (.subscribed (missed ++ transactions before) [] [], w.pending, w.log) := by
  induction turns with
  | nil =>
    intro w missed h
    refine .inl ⟨?_, ?_⟩
    · rw [transactions, List.filterMap_nil, List.append_nil, ← h]
      rfl
    · intro before after hsplit
      simp at hsplit
  | cons turn rest ih =>
    intro w missed h
    by_cases hsubscribes : turn = .subscribe ∧ w.sawLive = true
    · obtain ⟨rfl, hsaw⟩ := hsubscribes
      refine .inr ⟨[], rest, rfl, hsaw, ?_⟩
      rw [List.nil_append, run_cons, step, subscribe, if_pos hsaw, h]
      simp [Channel.subscribe, run, transactionService, transactions]
    · have hnext := step_unsubscribed loads python aggregators turn h (by simpa using hsubscribes)
      have htransactions : ∀ later, transactions (turn :: later) =
          transactions [turn] ++ transactions later := transactions_append [turn]
      rw [run_cons, htransactions, ← List.append_assoc]
      have hpending := congrArg Prod.snd hnext
      rcases ih (congrArg Prod.fst hnext) with ⟨hrest, hnever⟩ | ⟨before, after, rfl, hsaw, hsubscribed⟩
      · refine .inl ⟨hrest.trans (congrArg _ hpending), ?_⟩
        intro before after hsplit
        cases before with
        | nil =>
          cases hsplit
          exact Bool.eq_false_iff.mpr fun hsaw => hsubscribes ⟨rfl, hsaw⟩
        | cons _ before =>
          cases hsplit
          exact hnever before after rfl
      · refine .inr ⟨turn :: before, after, rfl, hsaw, ?_⟩
        rw [List.cons_append, run_cons, hsubscribed, htransactions before, List.append_assoc]
        exact congrArg _ hpending

end Lemmas

/-- **The two services of the callback bot do not disturb each other.** In whatever order they
take turns, the attributes are those that the bootstrap service alone would have made, and
the transaction service subscribes only after it has seen them say that the bot is live.
Until then nothing is handled. What is published before is missed; what is published
after is handled in order, or still waits. -/
theorem callback_bot_run (loads : List UInt8 → Except PyError Json) (python : TransactionSurroundings)
    (aggregators : Aggregators) (attributes : BotAttributes) (turns : List Turn) :
    ∀ w, w = (start attributes).run loads python aggregators turns →
      w.attributes = attributes.start loads (appStates turns) ∧
      ((w.channel = .unsubscribed (transactions turns) ∧ w.pending = ⟨∅, []⟩ ∧ w.log = [] ∧
          ∀ looked before after, turns = looked ++ .poll :: (before ++ .subscribe :: after) →
            (attributes.start loads (appStates looked)).isLive python.number = false) ∨
        ∃ looked before after handled left,
          turns = looked ++ .poll :: (before ++ .subscribe :: after) ∧
          (attributes.start loads (appStates looked)).isLive python.number = true ∧
          w.channel = .subscribed (transactions (looked ++ .poll :: before)) handled left ∧
          handled ++ left = transactions after ∧
          w.pending = PendingTransactions.processPendingTransactions python ⟨∅, []⟩ handled) := by
  intro w hw
  subst hw
  have hattributes : ∀ before : List Turn,
      ((start attributes).run loads python aggregators before).attributes =
        attributes.start loads (appStates before) := fun before => following_run before _
  refine ⟨hattributes turns, ?_⟩
  have hidle : (start attributes).channel = .unsubscribed [] := rfl
  rcases unsubscribed_run turns hidle with ⟨hsame, hnever⟩ | ⟨before, after, rfl, hsaw, hsubscribed⟩
  · refine .inl ⟨congrArg Prod.fst hsame, congrArg (fun s => s.2.1) hsame,
      congrArg (fun s => s.2.2) hsame, ?_⟩
    intro looked before after hsplit
    -- Had it been live there, the transaction service would have seen it.
    have hunseen := hnever (looked ++ .poll :: before) after
      (by rw [hsplit, List.append_assoc, List.cons_append])
    rw [← hattributes]
    refine Bool.eq_false_iff.mpr fun hlive => Bool.eq_false_iff.mp hunseen ?_
    exact (sawLive_run _ _).mpr (.inr ⟨looked, before, rfl, hlive⟩)
  · rcases (sawLive_run before _).mp hsaw with hstart | ⟨looked, before, rfl, hlive⟩
    · cases hstart
    · obtain ⟨handled, left, hchannel, hall, hpending⟩ :=
        subscribed_run loads python aggregators after (congrArg Prod.fst hsubscribed)
      rw [hattributes] at hlive
      rw [← run_append, List.append_assoc] at hchannel hpending
      refine .inr ⟨looked, before, after, handled, left, ?_, hlive, ?_, hall, ?_⟩
      · rw [List.append_assoc, List.cons_append]
      · exact hchannel
      · refine hpending.trans ?_
        exact congrArg (PendingTransactions.processPendingTransactions python · handled)
          (congrArg (fun s => s.2.1) hsubscribed)

/-! ### A bot that is told that it is live -/

/-- The byte 0 stands for the state of the app, 1 for a swap that goes through 1inch. -/
def loadsSwap : List UInt8 → Except PyError Json
  | [0] => .ok (.object [("live", .bool true), ("newest_block", .number "7")])
  | [1] => .ok (.object [("hash", .string "0xA"), ("from", .string "0xC"), ("to", .string "0xB"),
      ("input", .string "0x"), ("type", .string "0x0"), ("nonce", .string "0x0"),
      ("value", .string "0x0")])
  | _ => .error .valueError

/-- Every transaction that it is asked to simulate succeeds. -/
def swapSurroundings : TransactionSurroundings where
  loads := loadsSwap
  int16 value :=
    match value with
    | .string "0x0" => .ok 0
    | _ => .error .valueError
  number _ := 7
  toChecksumAddress := .ok
  ethCall _ _ := .ok ()
  processTransaction _ := none

def oneInch : Aggregators := some (.ofList [("0xB", .object [("aggregator", .string "oneinch")])])

/-- The bot is not live yet. -/
def notLive : BotAttributes := fun key => if key = "live" then some (.other 0) else none

/-- The first swap is missed, the second waits. -/
def beforeReceive : List Turn :=
  [.publish ⟨"message", .none, .none, .bytes [1]⟩, .poll, .appState (appStateMessage 0), .poll,
    .subscribe, .publish ⟨"message", .none, .none, .bytes [1]⟩]

theorem callback_bot_run_swap : ∃ looked rest, beforeReceive = looked ++ .poll :: rest ∧
    (notLive.start loadsSwap (appStates looked)).isLive swapSurroundings.number = true := by
  obtain ⟨_, hnever | hsubscribed⟩ :=
    callback_bot_run loadsSwap swapSurroundings oneInch notLive beforeReceive _ rfl
  · cases hnever.1
  · obtain ⟨looked, before, after, _, _, hsplit, hlive, _⟩ := hsubscribed
    exact ⟨looked, _, hsplit, hlive⟩

/-! ### What is reported -/

/-- A message brings a transaction whose hash has not failed, and this is what cleaning makes
of it. -/
def Passes (python : TransactionSurroundings) (s : PendingTransactions) (message : Message)
    (cleaned : Transaction) : Prop :=
  ∃ transaction hash s', Brings python message transaction hash ∧ hash ∉ s.failedTransactions ∧
    s.cleanTransaction python transaction = (.ok (some cleaned), s') ∧
    Cleans python s transaction hash (.ok (some cleaned), s')

section Reports
variable {loads : List UInt8 → Except PyError Json} {python : TransactionSurroundings}
  {aggregators : Aggregators} {w : CallbackBot} {message : Message}

theorem passes_of_processed {s : PendingTransactions} {cleaned : Transaction}
    (h : processed python s message = some cleaned) : Passes python s message cleaned := by
  rw [processed] at h
  by_cases hexists : ∃ transaction hash, Brings python message transaction hash
  · obtain ⟨transaction, hash, hbrings⟩ := hexists
    rw [PendingTransactions.handleMessage_of_brings s hbrings] at h
    by_cases hfailed : hash ∈ s.failedTransactions
    · rw [if_pos hfailed] at h
      cases h
    · have hcleans := cleans hbrings.hash_eq s
      rw [if_neg hfailed] at h
      rcases hclean : s.cleanTransaction python transaction with ⟨e | _ | cleaned', s'⟩
      · rw [hclean] at h
        cases h
      · rw [hclean] at h
        cases h
      · rw [hclean] at h hcleans
        obtain rfl := PendingTransactions.eq_of_handleCleaned h
        exact ⟨transaction, hash, s', hbrings, hfailed, hclean, hcleans⟩
  · rw [(PendingTransactions.handleMessage_of_not_brings s hexists).1] at h
    cases h

theorem processed_of_passes {s : PendingTransactions} {cleaned : Transaction} {toAddress : String}
    (h : Passes python s message cleaned) (hto : cleaned.get? "to" = some (.string toAddress)) :
    processed python s message = some cleaned := by
  obtain ⟨transaction, hash, s', hbrings, hnew, hclean, _⟩ := h
  rw [processed, PendingTransactions.handleMessage_of_brings s hbrings, if_neg hnew, hclean]
  show (PendingTransactions.handleCleaned cleaned).toOption.join = some cleaned
  rw [PendingTransactions.handleCleaned, hto]
  rfl

variable (python aggregators w message) in
theorem logged_cases :
    (w.logged python aggregators message = [] ∧ ¬∃ cleaned table toAddress,
        Passes python w.pending message cleaned ∧ ToAggregator aggregators cleaned table toAddress) ∨
      ∃ cleaned table toAddress, Passes python w.pending message cleaned ∧
        ToAggregator aggregators cleaned table toAddress ∧
        IsReport python w.attributes cleaned table toAddress (w.logged python aggregators message) := by
  rw [logged]
  cases hprocessed : processed python w.pending message with
  | none =>
    refine .inl ⟨rfl, ?_⟩
    intro h
    obtain ⟨cleaned, table, toAddress, hpasses, _, hto, _⟩ := h
    rw [processed_of_passes hpasses hto] at hprocessed
    cases hprocessed
  | some cleaned =>
    have hpasses := passes_of_processed hprocessed
    rcases processTransaction_cases python aggregators w.attributes cleaned with
      ⟨hempty, hnone⟩ | ⟨table, toAddress, hto, hreport⟩
    · refine .inl ⟨hempty, ?_⟩
      intro h
      obtain ⟨cleaned', table, toAddress, hpasses', hto⟩ := h
      have hsame := processed_of_passes hpasses' hto.2.1
      rw [hprocessed] at hsame
      cases hsame
      exact hnone ⟨table, toAddress, hto⟩
    · exact .inr ⟨cleaned, table, toAddress, hpasses, hto, hreport⟩

variable (loads python aggregators w) in
/-- Only a message that is received adds to the log. -/
theorem step_log (turn : Turn) :
    ((w.step loads python aggregators turn).log = w.log ∧
        ¬∃ message, turn = .receive ∧ w.channel.waiting.head? = some message) ∨
      ∃ message, turn = .receive ∧ w.channel.waiting.head? = some message ∧
        (w.step loads python aggregators turn).log = w.log ++ w.logged python aggregators message := by
  by_cases hturn : turn = .receive
  · subst hturn
    cases hwaiting : w.channel.waiting with
    | nil =>
      refine .inl ⟨?_, by simp⟩
      have hnone : w.channel.receive = none := by
        rcases hchannel : w.channel with missed | ⟨missed, received, waiting⟩
        · rfl
        · rw [hchannel] at hwaiting
          cases hwaiting
          rfl
      simp only [step, receive, hnone]
    | cons message rest =>
      obtain ⟨channel, hmessage⟩ := Channel.exists_receive hwaiting
      refine .inr ⟨message, rfl, rfl, ?_⟩
      simp only [step, receive, hmessage]
  · refine .inl ⟨?_, fun h => hturn h.choose_spec.1⟩
    cases turn with
    | appState received =>
      exact congrArg (fun s => s.2.2) (receiveAppState_frame (w := w) received).1
    | publish message => rfl
    | poll =>
      simp only [step, poll]
      split
      · rfl
      · rfl
    | subscribe =>
      simp only [step, subscribe]
      split
      · cases w.channel.subscribe <;> rfl
      · rfl
    | receive => exact absurd rfl hturn

end Reports

/-- **What is logged is right about the transaction and about the app.** At any time of any run
the attributes follow what was received on `cream_app_state` until the first bad message. The
only thing that is ever logged is the report of the message that is received, and there is one
exactly if it brings a transaction for an aggregator that has not failed and passes cleaning. -/
theorem reports_follow_app_state (loads : List UInt8 → Except PyError Json)
    (python : TransactionSurroundings) (aggregators : Aggregators) (attributes : BotAttributes)
    (before : List Turn) (turn : Turn) :
    ∀ w, w = (start attributes).run loads python aggregators before →
      Follows loads ((appStates before).takeWhile fun received => !isBad loads received) attributes
        w.attributes ∧
      ∃ lines, (w.step loads python aggregators turn).log = w.log ++ lines ∧
        ((lines = [] ∧ ¬∃ message cleaned table toAddress, turn = .receive ∧
            w.channel.waiting.head? = some message ∧ Passes python w.pending message cleaned ∧
            ToAggregator aggregators cleaned table toAddress) ∨
          ∃ message cleaned table toAddress, turn = .receive ∧
            w.channel.waiting.head? = some message ∧ Passes python w.pending message cleaned ∧
            ToAggregator aggregators cleaned table toAddress ∧
            IsReport python w.attributes cleaned table toAddress lines) := by
  intro w hw
  subst hw
  refine ⟨?_, ?_⟩
  · rw [following_run]
    exact BotAttributes.follows_start loads attributes (appStates before)
  · generalize (start attributes).run loads python aggregators before = w
    rcases step_log loads python aggregators w turn with
      ⟨hsame, hnone⟩ | ⟨message, hturn, hfirst, hlog⟩
    · refine ⟨[], by rw [hsame, List.append_nil], .inl ⟨rfl, ?_⟩⟩
      intro h
      obtain ⟨message, _, _, _, hturn, hfirst, _⟩ := h
      exact hnone ⟨message, hturn, hfirst⟩
    · refine ⟨_, hlog, ?_⟩
      rcases logged_cases python aggregators w message with
        ⟨hempty, hnone⟩ | ⟨cleaned, table, toAddress, hreport⟩
      · refine .inl ⟨hempty, ?_⟩
        intro h
        obtain ⟨message', cleaned, table, toAddress, _, hfirst', hpasses, hto⟩ := h
        rw [hfirst] at hfirst'
        cases hfirst'
        exact hnone ⟨cleaned, table, toAddress, hpasses, hto⟩
      · exact .inr ⟨message, cleaned, table, toAddress, hturn, hfirst, hreport⟩

theorem reports_follow_app_state_swap : ∃ w lines cleaned table toAddress,
    w = (start notLive).run loadsSwap swapSurroundings oneInch beforeReceive ∧
      (w.step loadsSwap swapSurroundings oneInch .receive).log = w.log ++ lines ∧
      IsReport swapSurroundings w.attributes cleaned table toAddress lines := by
  obtain ⟨_, lines, hlog, hnone | hreport⟩ :=
    reports_follow_app_state loadsSwap swapSurroundings oneInch notLive beforeReceive .receive _ rfl
  · rw [hnone.1] at hlog
    cases hlog
  · obtain ⟨_, cleaned, table, toAddress, _, _, _, _, hreport⟩ := hreport
    exact ⟨_, lines, cleaned, table, toAddress, rfl, hlog, hreport⟩

end CallbackBot
end CreamBots.App
