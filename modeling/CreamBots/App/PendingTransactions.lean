import CreamBots.App.EventLoop
import CreamBots.Data.Listen
import Mathlib.Data.Finset.Insert
import Mathlib.Data.Rat.Init

/-! The pending transactions of the callback bot.

A transaction is stripped to the fields that its type allows, its addresses are written
with checksums, and it is simulated. If any of this fails its hash goes into
`failed_transactions`, and from then on no transaction of that hash is simulated; what
is raised for one message costs the others nothing
(`failed_transactions_not_simulated_again`). -/
namespace CreamBots.App
open Data

/-! ### Values -/

/-- What a set can hold, as Python compares it: True is 1 and False is 0. -/
inductive HashKey where
  | null
  | number (value : Rat)
  | string (s : String)
deriving DecidableEq

namespace Json

/-- Objects are falsy if they are empty, numbers if they are 0. -/
def truthy (number : String → Rat) : Json → Bool
  | null => false
  | bool b => b
  | .number text => decide (number text ≠ 0)
  | string s => decide (s ≠ "")
  | array items => !items.isEmpty
  | object fields => !fields.isEmpty

def hashKey (number : String → Rat) : Json → Except PyError HashKey
  | null => .ok .null
  | bool b => .ok (.number (if b then 1 else 0))
  | .number text => .ok (.number (number text))
  | string s => .ok (.string s)
  | array _ => .error .typeError
  | object _ => .error .typeError

end Json

abbrev Transaction := Dict String Json

/-- What the service meets: `ujson.loads` of decoded bytes, `int(.., 16)`, the value of a
number, `to_checksum_address`, what comes of the n-th simulation, and what
`process_transaction` raises, which does no more than log. -/
structure TransactionSurroundings where
  loads : List UInt8 → Except PyError Json
  int16 : Json → Except PyError Int
  number : String → Rat
  toChecksumAddress : Json → Except PyError Json
  ethCall : Nat → Transaction → Except PyError Unit
  processTransaction : Transaction → Option PyError

/-- `failed_transactions`, and the transactions that have been simulated. -/
structure PendingTransactions where
  failedTransactions : Finset HashKey
  simulated : List Transaction

/-! ### clean_transaction -/

def paramsToKeep : List String :=
  ["from", "to", "gas", "maxFeePerGas", "maxPriorityFeePerGas", "gasPrice", "value", "data", "input",
    "nonce", "type", "hash"]

/-- The fields that are kept of a transaction of this type, if there is such a type. -/
def paramsOfType (transactionType : Int) : Option (List String) :=
  if transactionType = 0 then some ((paramsToKeep.erase "maxFeePerGas").erase "maxPriorityFeePerGas")
  else if transactionType = 1 then
    some ((paramsToKeep.erase "maxFeePerGas").erase "maxPriorityFeePerGas")
  else if transactionType = 2 ∨ transactionType = 3 then some (paramsToKeep.erase "gasPrice")
  else none

section Clean
variable (python : TransactionSurroundings)

/-- `transaction[key]`. -/
def Transaction.getItem (transaction : Transaction) (key : String) : Except PyError Json :=
  match transaction.get? key with
  | some value => .ok value
  | none => .error .keyError

/-- `int(transaction["type"], 16)`. -/
def Transaction.type (transaction : Transaction) : Except PyError Int := do
  let type ← Transaction.getItem transaction "type"
  python.int16 type

/-- `transaction["hash"]`, where a set is asked for it. -/
def Transaction.hash (transaction : Transaction) : Except PyError HashKey := do
  let hash ← Transaction.getItem transaction "hash"
  hash.hashKey python.number

/-- One of the addresses; there may be none. -/
def checksumField (transaction : Transaction) (addrField : String) : Except PyError Transaction :=
  match transaction.get? addrField with
  | none => .ok transaction
  | some value =>
    if value.truthy python.number then do
      let address ← python.toChecksumAddress value
      return transaction.set addrField address
    else .ok transaction

def addrFields : List String := ["from", "to"]

/-- The transaction to test, none if its type is unknown. -/
def transactionToTest (transaction : Transaction) : Except PyError (Option Transaction) := do
  let transactionType ← Transaction.type python transaction
  match paramsOfType transactionType with
  | none => return none
  | some params =>
    let kept ← addrFields.foldlM (checksumField python) (transaction.filterKeys fun k => decide (k ∈ params))
    return some kept

namespace PendingTransactions

/-- `failed_transactions.add(transaction["hash"])`. -/
def addFailed (s : PendingTransactions) (transaction : Transaction) :
    Except PyError (Option Transaction) × PendingTransactions :=
  match Transaction.hash python transaction with
  | .error e => (.error e, s)
  | .ok hash => (.ok none, {s with failedTransactions := insert hash s.failedTransactions})

/-- All that is raised comes to the same end. -/
def cleanTransaction (s : PendingTransactions) (transaction : Transaction) :
    Except PyError (Option Transaction) × PendingTransactions :=
  match transactionToTest python transaction with
  | .error _ => s.addFailed python transaction
  | .ok none => s.addFailed python transaction
  | .ok (some toTest) =>
    let called := {s with simulated := s.simulated ++ [toTest]}
    match python.ethCall s.simulated.length toTest with
    | .error _ => called.addFailed python transaction
    | .ok _ => (.ok (some toTest), called)

end PendingTransactions
end Clean

/-! ### process_pending_transactions -/

section Process
variable (python : TransactionSurroundings)

/-- The transaction of a message, with its hash. Only a dictionary is indexed by a text. -/
def TransactionSurroundings.readTransaction (data : RedisValue) :
    Except PyError (Transaction × HashKey) := do
  match ← data.decode python.loads with
  | .object fields =>
    let transaction : Transaction := .ofList fields
    let hash ← Transaction.hash python transaction
    return (transaction, hash)
  | _ => .error .typeError

namespace PendingTransactions

/-- The transaction that `process_transaction` is called with, of one that is clean. It has a
type, so it is not empty. -/
def handleCleaned (cleaned : Transaction) : Except PyError (Option Transaction) :=
  match cleaned.get? "to" with
  | none => .error .keyError
  | some .null => .ok none
  | some _ => .ok (some cleaned)

/-- What a message comes to: the transaction that `process_transaction` is called with, if
there is one. -/
def handleMessage (s : PendingTransactions) (message : Message) :
    Except PyError (Option Transaction) × PendingTransactions :=
  if message.type = "message" then
    match python.readTransaction message.data with
    | .error e => (.error e, s)
    | .ok (transaction, hash) =>
      if hash ∈ s.failedTransactions then (.ok none, s)
      else
        match s.cleanTransaction python transaction with
        | (.error e, s) => (.error e, s)
        | (.ok none, s) => (.ok none, s)
        | (.ok (some cleaned), s) => (handleCleaned cleaned, s)
  else (.ok none, s)

/-- The body of `async for`: the state after it and what it raises. -/
def body (s : PendingTransactions) (message : Message) : PendingTransactions × Option PyError :=
  match s.handleMessage python message with
  | (.error e, s) => (s, some e)
  | (.ok none, s) => (s, none)
  | (.ok (some cleaned), s) => (s, python.processTransaction cleaned)

def processPendingTransactions (s : PendingTransactions) (stream : List Message) : PendingTransactions :=
  (relisten (body python) s stream).1

end PendingTransactions
end Process

/-! ### What is asked of a clean transaction -/

/-- Transactions of this type have this field. -/
def Allows (transactionType : Int) (field : String) : Prop :=
  field ∈ paramsToKeep ∧
    (transactionType = 0 ∨ transactionType = 1 →
      field ≠ "maxFeePerGas" ∧ field ≠ "maxPriorityFeePerGas") ∧
    (transactionType = 2 ∨ transactionType = 3 → field ≠ "gasPrice")

instance decidableAllows (transactionType : Int) (field : String) :
    Decidable (Allows transactionType field) := inferInstanceAs (Decidable (_ ∧ (_ → _) ∧ (_ → _)))

section Spec
variable (python : TransactionSurroundings)

/-- The type can be read and is one of 0, 1, 2 and 3. -/
def HasType (transaction : Transaction) (transactionType : Int) : Prop :=
  Transaction.type python transaction = .ok transactionType ∧ 0 ≤ transactionType ∧ transactionType ≤ 3

/-- There is an address in this field, and it is not a valid one. -/
def InvalidAddress (transaction : Transaction) (addrField : String) : Prop :=
  ∃ value e, transaction.get? addrField = some value ∧ value.truthy python.number = true ∧
    python.toChecksumAddress value = .error e

/-- An address with its checksum. -/
def checksummed (value : Json) : Json :=
  if value.truthy python.number then (python.toChecksumAddress value).toOption.getD value else value

/-- The fields that the type allows, as they were, but for the addresses. -/
def IsCleaned (transaction : Transaction) (transactionType : Int) (cleaned : Transaction) : Prop :=
  ∀ field, cleaned.get? field =
    if Allows transactionType field then
      (transaction.get? field).map fun value =>
        if field ∈ addrFields then checksummed python value else value
    else none

/-- Between these two states a transaction was simulated, and the simulation raised. -/
def SimulationRaised (s s' : PendingTransactions) : Prop :=
  ∃ cleaned e, s'.simulated = s.simulated ++ [cleaned] ∧
    python.ethCall s.simulated.length cleaned = .error e

/-- Why a transaction fails cleaning. -/
def Fails (s s' : PendingTransactions) (transaction : Transaction) : Prop :=
  (¬∃ transactionType, HasType python transaction transactionType) ∨
    (∃ addrField ∈ addrFields, InvalidAddress python transaction addrField) ∨
    SimulationRaised python s s'

/-- What cleaning comes to: the transaction passes and nothing is added, or it fails and
its hash is. -/
def Cleans (s : PendingTransactions) (transaction : Transaction) (hash : HashKey) :
    Except PyError (Option Transaction) × PendingTransactions → Prop
  | (.ok (some cleaned), s') => s'.failedTransactions = s.failedTransactions ∧
      (∃ transactionType, HasType python transaction transactionType ∧
        IsCleaned python transaction transactionType cleaned) ∧ ¬Fails python s s' transaction
  | (.ok none, s') => s'.failedTransactions = insert hash s.failedTransactions ∧
      Fails python s s' transaction
  | (.error _, _) => False

/-- The data of the message are a transaction with this hash. -/
def Brings (message : Message) (transaction : Transaction) (hash : HashKey) : Prop :=
  message.type = "message" ∧ ∃ bytes fields value, message.data = .bytes bytes ∧
    python.loads bytes = .ok (.object fields) ∧ transaction = Dict.ofList fields ∧
    transaction.get? "hash" = some value ∧ value.hashKey python.number = .ok hash

end Spec

section Cleaning
variable {python : TransactionSurroundings} {transaction : Transaction}

/-- There is a list of fields for each of the four types. -/
theorem paramsOfType_cases (transactionType : Int) :
    (paramsOfType transactionType = none ∧ ¬(0 ≤ transactionType ∧ transactionType ≤ 3)) ∨
      ∃ params, paramsOfType transactionType = some params ∧
        (0 ≤ transactionType ∧ transactionType ≤ 3) ∧
        ∀ field, field ∈ params ↔ Allows transactionType field := by
  have hnodup : paramsToKeep.Nodup := by decide
  have hfees : ∀ field,
      field ∈ (paramsToKeep.erase "maxFeePerGas").erase "maxPriorityFeePerGas" ↔
        field ∈ paramsToKeep ∧ field ≠ "maxFeePerGas" ∧ field ≠ "maxPriorityFeePerGas" := by
    intro field
    rw [(hnodup.erase _).mem_erase_iff, hnodup.mem_erase_iff]
    tauto
  unfold paramsOfType Allows
  split_ifs with h0 h1 h23
  · subst h0
    exact .inr ⟨_, rfl, by decide, fun field => by rw [hfees]; simp⟩
  · subst h1
    exact .inr ⟨_, rfl, by decide, fun field => by rw [hfees]; simp⟩
  · refine .inr ⟨_, rfl, by omega, fun field => ?_⟩
    rw [hnodup.mem_erase_iff]
    simp only [h0, h1, h23, or_self, false_imp_iff, true_imp_iff, true_and]
    exact and_comm
  · exact .inl ⟨rfl, by omega⟩

theorem invalidAddress_iff {addrField : String} {value : Json}
    (hget : transaction.get? addrField = some value) :
    InvalidAddress python transaction addrField ↔
      value.truthy python.number = true ∧ ∃ e, python.toChecksumAddress value = .error e := by
  constructor
  · intro hinvalid
    obtain ⟨value', e, hvalue, htruthy, he⟩ := hinvalid
    rw [hget] at hvalue
    cases hvalue
    exact ⟨htruthy, e, he⟩
  · intro h
    obtain ⟨htruthy, e, he⟩ := h
    exact ⟨value, e, hget, htruthy, he⟩

/-- Only the address fields themselves matter. -/
theorem exists_invalidAddress_congr {kept : Transaction} {fields : List String}
    (h : ∀ field ∈ fields, kept.get? field = transaction.get? field) :
    (∃ field ∈ fields, InvalidAddress python kept field) ↔
      ∃ field ∈ fields, InvalidAddress python transaction field := by
  refine exists_congr fun field => and_congr_right fun hfield => ?_
  rw [InvalidAddress, InvalidAddress, h field hfield]

variable (python transaction) in
theorem checksumField_cases (addrField : String) :
    (∃ kept, checksumField python transaction addrField = .ok kept ∧
        ¬InvalidAddress python transaction addrField ∧
        ∀ field, kept.get? field = if field = addrField then
          (transaction.get? field).map (checksummed python) else transaction.get? field) ∨
      ∃ e, checksumField python transaction addrField = .error e ∧
        InvalidAddress python transaction addrField := by
  cases hget : transaction.get? addrField with
  | none =>
    refine .inl ⟨transaction, by rw [checksumField, hget], by simp [InvalidAddress, hget], fun field => ?_⟩
    split_ifs with hfield
    · rw [hfield, hget]
      rfl
    · rfl
  | some value =>
    have hstep : checksumField python transaction addrField =
        if value.truthy python.number then
          (python.toChecksumAddress value).map fun address => transaction.set addrField address
        else .ok transaction := by
      rw [checksumField, hget]
      rfl
    rw [hstep, invalidAddress_iff hget]
    by_cases htruthy : value.truthy python.number = true
    · rw [if_pos htruthy]
      cases haddress : python.toChecksumAddress value with
      | error e => exact .inr ⟨e, rfl, htruthy, e, rfl⟩
      | ok address =>
        refine .inl ⟨transaction.set addrField address, rfl, ?_, fun field => ?_⟩
        · intro hinvalid
          obtain ⟨_, e, he⟩ := hinvalid
          cases he
        · rw [Dict.get?_set]
          split_ifs with hfield
          · rw [hfield, hget, Option.map_some, checksummed, if_pos htruthy, haddress]
            rfl
          · rfl
    · rw [if_neg htruthy]
      refine .inl ⟨transaction, rfl, fun hinvalid => htruthy hinvalid.1, fun field => ?_⟩
      split_ifs with hfield
      · rw [hfield, hget, Option.map_some, checksummed, if_neg htruthy]
      · rfl

/-- The addresses are done one after the other; the first that is invalid is the end of it. -/
theorem checksumFields_cases (fields : List String) (hnodup : fields.Nodup) :
    ∀ transaction : Transaction,
    (∃ kept, fields.foldlM (checksumField python) transaction = .ok kept ∧
        (¬∃ addrField ∈ fields, InvalidAddress python transaction addrField) ∧
        ∀ field, kept.get? field = (transaction.get? field).map fun value =>
          if field ∈ fields then checksummed python value else value) ∨
      ∃ e, fields.foldlM (checksumField python) transaction = .error e ∧
        ∃ addrField ∈ fields, InvalidAddress python transaction addrField := by
  induction fields with
  | nil => exact fun transaction => .inl ⟨transaction, rfl, by simp, by simp⟩
  | cons addrField rest ih =>
    intro transaction
    obtain ⟨hnew, hrest⟩ := List.nodup_cons.mp hnodup
    rw [List.foldlM_cons]
    rcases checksumField_cases python transaction addrField with
      ⟨kept, hkept, hvalid, hget⟩ | ⟨e, he, hinvalid⟩
    · -- The other fields are as they were.
      have hother : ∀ field ∈ rest, kept.get? field = transaction.get? field := by
        intro field hfield
        rw [hget, if_neg]
        intro hfirst
        subst hfirst
        exact hnew hfield
      have hinvalid : (∃ field ∈ rest, InvalidAddress python kept field) ↔
          ∃ field ∈ addrField :: rest, InvalidAddress python transaction field := by
        rw [List.exists_mem_cons_iff, or_iff_right hvalid]
        exact exists_invalidAddress_congr hother
      rw [hkept, ← hinvalid]
      rcases ih hrest kept with ⟨kept', hkept', hvalid', hget'⟩ | ⟨e, he, hinvalid'⟩
      · refine .inl ⟨kept', hkept', hvalid', fun field => ?_⟩
        rw [hget', hget]
        by_cases hfield : field = addrField
        · subst hfield
          simp [hnew, Function.comp_def]
        · simp [hfield]
      · exact .inr ⟨e, he, hinvalid'⟩
    · rw [he]
      exact .inr ⟨e, rfl, addrField, List.mem_cons_self .., hinvalid⟩

theorem getItem_eq_ok {key : String} {value : Json} :
    Transaction.getItem transaction key = .ok value ↔ transaction.get? key = some value := by
  unfold Transaction.getItem
  cases transaction.get? key with
  | none => simp
  | some value' => simp

theorem transactionToTest_unreadable {e : PyError} (htype : Transaction.type python transaction = .error e) :
    transactionToTest python transaction = .error e := by
  rw [transactionToTest, htype]
  rfl

theorem transactionToTest_unknown {transactionType : Int}
    (htype : Transaction.type python transaction = .ok transactionType)
    (hparams : paramsOfType transactionType = none) :
    transactionToTest python transaction = .ok none := by
  simp only [transactionToTest, htype, bind, Except.bind, hparams]
  rfl

theorem transactionToTest_known {transactionType : Int} {params : List String}
    (htype : Transaction.type python transaction = .ok transactionType)
    (hparams : paramsOfType transactionType = some params) :
    transactionToTest python transaction = (addrFields.foldlM (checksumField python)
      (transaction.filterKeys fun k => decide (k ∈ params))).map some := by
  simp only [transactionToTest, htype, bind, Except.bind, hparams]
  rfl

variable (python transaction) in
/-- The transaction to test is the cleaned one, or there is none. -/
theorem transactionToTest_cases :
    (∃ cleaned, transactionToTest python transaction = .ok (some cleaned) ∧
        (¬∃ addrField ∈ addrFields, InvalidAddress python transaction addrField) ∧
        ∃ transactionType, HasType python transaction transactionType ∧
          IsCleaned python transaction transactionType cleaned) ∨
      (∀ cleaned, transactionToTest python transaction ≠ .ok (some cleaned)) ∧
        ((¬∃ transactionType, HasType python transaction transactionType) ∨
          ∃ addrField ∈ addrFields, InvalidAddress python transaction addrField) := by
  cases htype : Transaction.type python transaction with
  | error e =>
    rw [transactionToTest_unreadable htype]
    refine .inr ⟨by simp, .inl ?_⟩
    intro htypes
    obtain ⟨transactionType, hknown, _⟩ := htypes
    rw [htype] at hknown
    cases hknown
  | ok transactionType =>
    rcases paramsOfType_cases transactionType with ⟨hparams, hrange⟩ | ⟨params, hparams, hrange, hallows⟩
    · rw [transactionToTest_unknown htype hparams]
      refine .inr ⟨by simp, .inl ?_⟩
      intro htypes
      obtain ⟨transactionType', hknown, hrange'⟩ := htypes
      rw [htype] at hknown
      cases hknown
      exact hrange hrange'
    · rw [transactionToTest_known htype hparams]
      generalize hkept : (transaction.filterKeys fun k => decide (k ∈ params)) = kept
      have hget : ∀ field, kept.get? field =
          if Allows transactionType field then transaction.get? field else none := by
        intro field
        rw [← hkept, Dict.get?_filterKeys]
        simp only [decide_eq_true_eq, hallows]
      -- Every type has the two addresses.
      have haddresses : ∀ field ∈ addrFields, kept.get? field = transaction.get? field := by
        intro field hfield
        rw [hget, if_pos]
        rcases List.mem_cons.mp hfield with rfl | hfield
        · exact ⟨by decide, fun _ => by decide, fun _ => by decide⟩
        · rw [List.mem_singleton.mp hfield]
          exact ⟨by decide, fun _ => by decide, fun _ => by decide⟩
      rw [← exists_invalidAddress_congr haddresses]
      rcases checksumFields_cases addrFields (by decide) kept with
        ⟨cleaned, hcleaned, hvalid, hget'⟩ | ⟨e, he, hinvalid'⟩
      · rw [hcleaned]
        refine .inl ⟨cleaned, rfl, hvalid, transactionType, ⟨htype, hrange⟩, fun field => ?_⟩
        rw [hget', hget]
        split_ifs <;> rfl
      · rw [he]
        exact .inr ⟨by simp [Except.map], .inr hinvalid'⟩

theorem addFailed_eq {hash : HashKey} (h : Transaction.hash python transaction = .ok hash)
    (s : PendingTransactions) : s.addFailed python transaction =
      (.ok none, {s with failedTransactions := insert hash s.failedTransactions}) := by
  rw [PendingTransactions.addFailed, h]

theorem cleans {hash : HashKey} (h : Transaction.hash python transaction = .ok hash)
    (s : PendingTransactions) :
    Cleans python s transaction hash (s.cleanTransaction python transaction) := by
  rcases transactionToTest_cases python transaction with
    ⟨cleaned, htest, hvalid, transactionType, htype, hcleaned⟩ | ⟨htest, hfails⟩
  · rw [PendingTransactions.cleanTransaction, htest]
    show Cleans python s transaction hash (match python.ethCall s.simulated.length cleaned with
      | .error _ => _
      | .ok _ => _)
    cases hcall : python.ethCall s.simulated.length cleaned with
    | error e =>
      show Cleans python s transaction hash (PendingTransactions.addFailed python _ transaction)
      rw [addFailed_eq h]
      exact ⟨rfl, .inr (.inr ⟨cleaned, e, rfl, hcall⟩)⟩
    | ok _ =>
      refine ⟨rfl, ⟨transactionType, htype, hcleaned⟩, ?_⟩
      intro hfails
      rcases hfails with hnone | hinvalid | ⟨cleaned', e, hsame, hraised⟩
      · exact hnone ⟨transactionType, htype⟩
      · exact hvalid hinvalid
      · obtain rfl : cleaned = cleaned' := by simpa using hsame
        rw [hcall] at hraised
        cases hraised
  · have hclean : s.cleanTransaction python transaction = s.addFailed python transaction := by
      rw [PendingTransactions.cleanTransaction]
      cases hto : transactionToTest python transaction with
      | error e => rfl
      | ok toTest =>
        cases toTest with
        | none => rfl
        | some cleaned => exact absurd hto (htest cleaned)
    rw [hclean, addFailed_eq h]
    exact ⟨rfl, hfails.imp_right .inl⟩

/-- Cleaning adds to the failed transactions at most. -/
theorem Cleans.subset {s : PendingTransactions} {hash : HashKey}
    {outcome : Except PyError (Option Transaction) × PendingTransactions}
    (h : Cleans python s transaction hash outcome) :
    s.failedTransactions ⊆ outcome.2.failedTransactions := by
  rcases outcome with ⟨e | _ | cleaned, s'⟩
  · exact absurd h id
  · rw [h.1]
    exact Finset.subset_insert ..
  · rw [h.1]

end Cleaning

/-! ### The run -/

section Run
variable {python : TransactionSurroundings} {message : Message}

theorem hash_eq_ok {transaction : Transaction} {hash : HashKey} :
    Transaction.hash python transaction = .ok hash ↔
      ∃ value, transaction.get? "hash" = some value ∧ value.hashKey python.number = .ok hash := by
  rw [Transaction.hash, bind_eq_ok]
  simp only [getItem_eq_ok]

theorem Brings.hash_eq {transaction : Transaction} {hash : HashKey}
    (h : Brings python message transaction hash) : Transaction.hash python transaction = .ok hash := by
  obtain ⟨_, _, _, value, _, _, _, hget, hvalue⟩ := h
  exact hash_eq_ok.mpr ⟨value, hget, hvalue⟩

theorem brings_iff {transaction : Transaction} {hash : HashKey} :
    Brings python message transaction hash ↔ message.type = "message" ∧
      python.readTransaction message.data = .ok (transaction, hash) := by
  refine and_congr_right fun _ => ?_
  constructor
  · intro hbrings
    obtain ⟨bytes, fields, value, hdata, hloads, rfl, hget, hvalue⟩ := hbrings
    have hhash : Transaction.hash python (Dict.ofList fields) = .ok hash :=
      hash_eq_ok.mpr ⟨value, hget, hvalue⟩
    simp only [TransactionSurroundings.readTransaction, RedisValue.decode, hdata, hloads,
      bind, Except.bind, hhash]
    rfl
  · intro h
    obtain ⟨payload, hpayload, h⟩ := bind_eq_ok.mp h
    cases hdata : message.data with
    | bytes bytes =>
      rw [hdata] at hpayload
      cases payload with
      | object fields =>
        obtain ⟨hash', hhash, h⟩ := bind_eq_ok.mp h
        cases h
        obtain ⟨value, hget, hvalue⟩ := hash_eq_ok.mp hhash
        exact ⟨bytes, fields, value, rfl, hpayload, rfl, hget, hvalue⟩
      | _ => cases h
    | _ =>
      rw [hdata] at hpayload
      cases hpayload

namespace PendingTransactions

/-- It is the transaction itself that is processed. -/
theorem eq_of_handleCleaned {cleaned cleaned' : Transaction}
    (h : (handleCleaned cleaned').toOption.join = some cleaned) :
    cleaned' = cleaned := by
  rw [handleCleaned] at h
  cases hto : cleaned'.get? "to" with
  | none =>
    rw [hto] at h
    cases h
  | some value =>
    rw [hto] at h
    cases value with
    | null => cases h
    | _ => exact Option.some.inj h

theorem body_fst (s : PendingTransactions) (message : Message) :
    (s.body python message).1 = (s.handleMessage python message).2 := by
  rw [body]
  rcases s.handleMessage python message with ⟨e | _ | cleaned, s'⟩ <;> rfl

theorem handleMessage_of_brings (s : PendingTransactions) {transaction : Transaction} {hash : HashKey}
    (h : Brings python message transaction hash) : s.handleMessage python message =
      if hash ∈ s.failedTransactions then (.ok none, s)
      else ((s.cleanTransaction python transaction).1.bind fun cleaned =>
        match cleaned with
        | none => .ok none
        | some cleaned => handleCleaned cleaned, (s.cleanTransaction python transaction).2) := by
  obtain ⟨htype, hread⟩ := brings_iff.mp h
  simp only [handleMessage, if_pos htype, hread]
  split_ifs
  · rfl
  · rcases s.cleanTransaction python transaction with ⟨e | _ | cleaned, s'⟩ <;> rfl

/-- A message without a transaction that has a hash changes nothing. -/
theorem handleMessage_of_not_brings (s : PendingTransactions)
    (h : ¬∃ transaction hash, Brings python message transaction hash) :
    (s.handleMessage python message).1.toOption.join = none ∧ (s.handleMessage python message).2 = s := by
  rw [handleMessage]
  by_cases htype : message.type = "message"
  · rw [if_pos htype]
    cases hread : python.readTransaction message.data with
    | error e => exact ⟨rfl, rfl⟩
    | ok read => exact absurd ⟨read.1, read.2, brings_iff.mpr ⟨htype, hread⟩⟩ h
  · rw [if_neg htype]
    exact ⟨rfl, rfl⟩

theorem process_append (s : PendingTransactions) (before after : List Message) :
    s.processPendingTransactions python (before ++ after) =
      (s.processPendingTransactions python before).processPendingTransactions python after := by
  simp only [processPendingTransactions, relisten_fst, handleAll_append]

theorem process_singleton (s : PendingTransactions) (message : Message) :
    s.processPendingTransactions python [message] = (s.body python message).1 := relisten_fst ..

end PendingTransactions
end Run

end CreamBots.App
