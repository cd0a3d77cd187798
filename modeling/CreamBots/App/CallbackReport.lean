import CreamBots.App.BootstrapService
import CreamBots.App.PendingTransactions

/-! What the callback bot reports of a transaction.

If its address is in the table of the aggregators there is a banner, and if the aggregator
is 1inch the details follow, up to the first that cannot be read. The block comes first, so
until the bot was told of one there is none of them. Every line is right about the
transaction or the block (`says_of_mem_written`), and the last is there exactly if all the
others could be (`value_written_iff`). -/
namespace CreamBots.App
open Data

/-! ### process_transaction -/

/-- A line of the log; the banner of three lines counts as one. -/
inductive LogLine where
  | aggregatorTransaction
  | block (n : Rat)
  | text (field : String) (value : Json)
  | int (field : String) (value : Int)

/-- `bot_state.aggregators`, by address. -/
abbrev Aggregators := Option (Dict String Json)

/-- `d.get(key)`: the keys are texts, and what cannot be hashed cannot be looked up. -/
def lookUp (d : Dict String Json) : Json → Except PyError (Option Json)
  | .string s => .ok (d.get? s)
  | .array _ => .error .typeError
  | .object _ => .error .typeError
  | _ => .ok none

namespace BotAttributes

/-- `bot_state.newest_block`, where 1 is added to it. It is None until the bot is told. -/
def newestBlock (number : String → Rat) (s : BotAttributes) : Except PyError Rat :=
  match s "newest_block" with
  | some (.json (.number text)) => .ok (number text)
  | some (.json (.bool b)) => .ok (if b then 1 else 0)
  | some _ => .error .typeError
  | none => .error .attributeError

/-- `bot_state.live`, which is False until the bot is told. -/
def isLive (number : String → Rat) (s : BotAttributes) : Bool :=
  match s "live" with
  | some (.json value) => value.truthy number
  | _ => false

end BotAttributes

section Process
variable (python : TransactionSurroundings) (aggregators : Aggregators) (attributes : BotAttributes)

/-- `log.info` of one of the fields. -/
def textLine (transaction : Transaction) (field : String) : Except PyError (Option LogLine) :=
  (Transaction.getItem transaction field).map fun value => some (.text field value)

/-- `log.info` of a number in hexadecimal. -/
def intLine (transaction : Transaction) (field : String) : Except PyError (Option LogLine) := do
  let value ← Transaction.getItem transaction field
  let n ← python.int16 value
  return some (.int field n)

/-- The same under `if field in transaction`. -/
def intLineIfIn (transaction : Transaction) (field : String) : Except PyError (Option LogLine) :=
  if (transaction.get? field).isSome then intLine python transaction field else .ok none

/-- What `print_transaction_details` writes, line by line. -/
def detailLines (transaction : Transaction) : List (Except PyError (Option LogLine)) :=
  [(attributes.newestBlock python.number).map fun n => some (.block (n + 1)),
    textLine transaction "hash", textLine transaction "from", textLine transaction "to",
    intLine python transaction "type", textLine transaction "input",
    intLineIfIn python transaction "gasPrice", intLineIfIn python transaction "maxFeePerGas",
    intLineIfIn python transaction "maxPriorityFeePerGas", intLine python transaction "nonce",
    intLine python transaction "value"]

/-- One `log.info`. -/
def logNext (lines : List LogLine) : Except PyError (Option LogLine) → List LogLine × Option PyError
  | .error e => (lines, some e)
  | .ok line => (lines ++ line.toList, none)

def printTransactionDetails (transaction : Transaction) : List LogLine × Option PyError :=
  match forEach logNext [] (detailLines python attributes transaction) with
  | (lines, raised) => (lines, raised.map Prod.fst)

/-- `aggregator_info`, with the address in its checksummed form. -/
def getAggregatorInfo (aggregators : Dict String Json) (address : Json) :
    Except PyError (Option Json) := do
  let checksum ← python.toChecksumAddress address
  lookUp aggregators checksum

/-- `aggregator_info['aggregator'] == 'oneinch'`, if there is any information. -/
def isOneInch (aggregators : Dict String Json) (address : Json) : Except PyError Bool := do
  match ← getAggregatorInfo python aggregators address with
  | none => return false
  | some info =>
    if info.truthy python.number then do
      match ← info.getItem "aggregator" with
      | .string aggregator => return decide (aggregator = "oneinch")
      | _ => return false
    else return false

def processAggregatorTransaction (aggregators : Dict String Json) (toAddress : Json)
    (transaction : Transaction) : List LogLine × Option PyError :=
  match isOneInch python aggregators toAddress with
  | .error e => ([.aggregatorTransaction], some e)
  | .ok false => ([.aggregatorTransaction], none)
  | .ok true =>
    match printTransactionDetails python attributes transaction with
    | (lines, raised) => (.aggregatorTransaction :: lines, raised)

/-- Without aggregators `in` raises. -/
def processTransaction (transaction : Transaction) : List LogLine × Option PyError :=
  match Transaction.getItem transaction "to", aggregators with
  | .error e, _ => ([], some e)
  | .ok _, none => ([], some .typeError)
  | .ok toAddress, some aggregators =>
    match lookUp aggregators toAddress with
    | .error e => ([], some e)
    | .ok none => ([], none)
    | .ok (some _) => processAggregatorTransaction python attributes aggregators toAddress transaction

/-- The transaction service of a bot with these attributes. -/
def servedBy : TransactionSurroundings :=
  {python with processTransaction := fun transaction =>
    (processTransaction python aggregators attributes transaction).2}

end Process

/-! ### What a report says -/

/-- What is written before anything is raised. -/
def written : List (Except PyError (Option LogLine)) → List LogLine
  | .ok line :: rest => line.toList ++ written rest
  | _ => []

theorem forEach_logNext (entries : List (Except PyError (Option LogLine))) (lines : List LogLine) :
    (forEach logNext lines entries).1 = lines ++ written entries := by
  induction entries generalizing lines with
  | nil => exact (List.append_nil lines).symm
  | cons entry rest ih =>
    cases entry with
    | error e => exact (List.append_nil lines).symm
    | ok line =>
      rw [forEach, logNext, written]
      exact (ih _).trans (List.append_assoc ..)

theorem exists_of_mem_written {line : LogLine} {entries : List (Except PyError (Option LogLine))}
    (h : line ∈ written entries) : .ok (some line) ∈ entries := by
  induction entries with
  | nil => cases h
  | cons entry rest ih =>
    cases entry with
    | error e => cases h
    | ok first =>
      rw [written, List.mem_append, Option.mem_toList] at h
      rcases h with rfl | h
      · exact List.mem_cons_self ..
      · exact List.mem_cons_of_mem _ (ih h)

/-- The last line is written if all before it could be. -/
theorem mem_written_concat {line : LogLine} {last : Except PyError (Option LogLine)}
    (entries : List (Except PyError (Option LogLine))) (h : .ok (some line) ∉ entries) :
    line ∈ written (entries ++ [last]) ↔
      (∀ entry ∈ entries, ∃ written, entry = .ok written) ∧ last = .ok (some line) := by
  induction entries with
  | nil =>
    rcases last with e | _ | other
    · simp [written]
    · simp [written]
    · simp [written, eq_comm]
  | cons entry rest ih =>
    rw [List.mem_cons, not_or] at h
    obtain ⟨hfirst, hrest⟩ := h
    cases entry with
    | error e => simp [written]
    | ok first =>
      have hother : line ∉ first.toList := by
        intro hmem
        rw [Option.mem_toList.mp hmem] at hfirst
        exact hfirst rfl
      rw [List.cons_append, written, List.mem_append, or_iff_right hother, ih hrest]
      simp

section Says
variable (python : TransactionSurroundings) (attributes : BotAttributes) (transaction : Transaction)

/-- A line of the details, and the bot and the transaction that it is right about. -/
def LogLine.Says : LogLine → Prop
  | .aggregatorTransaction => False
  | .block n => ∃ newest, attributes.newestBlock python.number = .ok newest ∧ n = newest + 1
  | .text field value => transaction.get? field = some value
  | .int field n => ∃ value, transaction.get? field = some value ∧ python.int16 value = .ok n

/-- The details of the transaction can be written to their end. -/
def DetailsReadable : Prop :=
  (∀ field ∈ ["hash", "from", "to", "input"], ∃ value, transaction.get? field = some value) ∧
  (∀ field ∈ ["type", "nonce", "value"], ∃ value n, transaction.get? field = some value ∧
    python.int16 value = .ok n) ∧
  ∀ field ∈ ["gasPrice", "maxFeePerGas", "maxPriorityFeePerGas"], ∀ value,
    transaction.get? field = some value → ∃ n, python.int16 value = .ok n

variable {python attributes transaction}

theorem textLine_eq_ok {field : String} {line : Option LogLine} :
    textLine transaction field = .ok line ↔
      ∃ value, transaction.get? field = some value ∧ line = some (.text field value) := by
  rw [textLine, Transaction.getItem]
  cases transaction.get? field <;> simp [Except.map, eq_comm]

theorem intLine_eq_ok {field : String} {line : Option LogLine} :
    intLine python transaction field = .ok line ↔ ∃ value n, transaction.get? field = some value ∧
      python.int16 value = .ok n ∧ line = some (.int field n) := by
  rw [intLine]
  constructor
  · intro h
    obtain ⟨value, hvalue, h⟩ := bind_eq_ok.mp h
    obtain ⟨n, hn, h⟩ := bind_eq_ok.mp h
    cases h
    exact ⟨value, n, getItem_eq_ok.mp hvalue, hn, rfl⟩
  · intro h
    obtain ⟨value, n, hvalue, hn, rfl⟩ := h
    exact bind_eq_ok.mpr ⟨value, getItem_eq_ok.mpr hvalue, bind_eq_ok.mpr ⟨n, hn, rfl⟩⟩

theorem intLineIfIn_eq_ok {field : String} {line : Option LogLine} :
    intLineIfIn python transaction field = .ok line ↔
      (transaction.get? field = none ∧ line = none) ∨ ∃ value n, transaction.get? field = some value ∧
        python.int16 value = .ok n ∧ line = some (.int field n) := by
  rw [intLineIfIn]
  cases hfield : transaction.get? field with
  | none => simp [eq_comm]
  | some value =>
    rw [Option.isSome_some, if_pos rfl, intLine_eq_ok, hfield]
    simp

/-- Of a number in hexadecimal only itself can be in the way. -/
theorem intLineIfIn_ok {field : String} :
    (∃ line, intLineIfIn python transaction field = .ok line) ↔
      ∀ value, transaction.get? field = some value → ∃ n, python.int16 value = .ok n := by
  simp only [intLineIfIn_eq_ok]
  cases transaction.get? field with
  | none => simp
  | some value => simp

/-- The block comes first; nothing is said that is not so. -/
theorem says_of_mem_written {line : LogLine}
    (h : line ∈ written (detailLines python attributes transaction)) :
    line.Says python attributes transaction := by
  have htext : ∀ field, .ok (some line) = textLine transaction field →
      line.Says python attributes transaction := by
    intro field hline
    obtain ⟨value, hvalue, hsame⟩ := textLine_eq_ok.mp hline.symm
    cases hsame
    exact hvalue
  have hint : ∀ field, .ok (some line) = intLine python transaction field →
      line.Says python attributes transaction := by
    intro field hline
    obtain ⟨value, n, hvalue, hn, hsame⟩ := intLine_eq_ok.mp hline.symm
    cases hsame
    exact ⟨value, hvalue, hn⟩
  have hintIfIn : ∀ field, .ok (some line) = intLineIfIn python transaction field →
      line.Says python attributes transaction := by
    intro field hline
    rcases intLineIfIn_eq_ok.mp hline.symm with ⟨_, hnone⟩ | ⟨value, n, hvalue, hn, hsame⟩
    · cases hnone
    · cases hsame
      exact ⟨value, hvalue, hn⟩
  have hmem := exists_of_mem_written h
  simp only [detailLines, List.mem_cons, List.not_mem_nil, or_false] at hmem
  rcases hmem with hblock | hline | hline | hline | hline | hline | hline | hline | hline | hline | hline
  · cases hnewest : attributes.newestBlock python.number with
    | error e =>
      rw [hnewest] at hblock
      cases hblock
    | ok newest =>
      rw [hnewest] at hblock
      cases hblock
      exact ⟨newest, hnewest, rfl⟩
  · exact htext _ hline
  · exact htext _ hline
  · exact htext _ hline
  · exact hint _ hline
  · exact htext _ hline
  · exact hintIfIn _ hline
  · exact hintIfIn _ hline
  · exact hintIfIn _ hline
  · exact hint _ hline
  · exact hint _ hline

theorem details_ok :
    (∀ entry ∈ detailLines python attributes transaction, ∃ line, entry = .ok line) ↔
      (∃ newest, attributes.newestBlock python.number = .ok newest) ∧
        DetailsReadable python transaction := by
  have hblock : (∃ line, (attributes.newestBlock python.number).map
      (fun n => some (LogLine.block (n + 1))) = .ok line) ↔
      ∃ newest, attributes.newestBlock python.number = .ok newest := by
    cases attributes.newestBlock python.number <;> simp [Except.map]
  have htext : ∀ field, (∃ line, textLine transaction field = .ok line) ↔
      ∃ value, transaction.get? field = some value := by
    intro field
    simp [textLine_eq_ok]
  have hint : ∀ field, (∃ line, intLine python transaction field = .ok line) ↔
      ∃ value n, transaction.get? field = some value ∧ python.int16 value = .ok n := by
    intro field
    simp [intLine_eq_ok]
  simp only [detailLines, DetailsReadable, List.forall_mem_cons, List.not_mem_nil, false_imp_iff,
    implies_true, and_true, hblock, htext, hint, intLineIfIn_ok]
  constructor
  · intro h
    obtain ⟨hblock, hhash, hfrom, hto, htype, hinput, hgas, hmax, hpriority, hnonce, hvalue⟩ := h
    exact ⟨hblock, ⟨hhash, hfrom, hto, hinput⟩, ⟨htype, hnonce, hvalue⟩, hgas, hmax, hpriority⟩
  · intro h
    obtain ⟨hblock, ⟨hhash, hfrom, hto, hinput⟩, ⟨htype, hnonce, hvalue⟩, hgas, hmax, hpriority⟩ := h
    exact ⟨hblock, hhash, hfrom, hto, htype, hinput, hgas, hmax, hpriority, hnonce, hvalue⟩

/-- They are written to the end if the number of the block is known and they are readable. -/
theorem value_written_iff :
    (∃ n, .int "value" n ∈ written (detailLines python attributes transaction)) ↔
      (∃ newest, attributes.newestBlock python.number = .ok newest) ∧
        DetailsReadable python transaction := by
  have hsplit : detailLines python attributes transaction =
      (detailLines python attributes transaction).dropLast ++ [intLine python transaction "value"] := rfl
  have hnotBefore : ∀ n, .ok (some (.int "value" n)) ∉
      (detailLines python attributes transaction).dropLast := by
    intro n hmem
    have hblock : .ok (some (.int "value" n)) ≠ (attributes.newestBlock python.number).map
        (fun n => some (LogLine.block (n + 1))) := by
      cases attributes.newestBlock python.number <;> simp [Except.map]
    simp [detailLines, List.dropLast, hblock, eq_comm (b := textLine ..), textLine_eq_ok,
      eq_comm (b := intLine ..), intLine_eq_ok, eq_comm (b := intLineIfIn ..),
      intLineIfIn_eq_ok] at hmem
  rw [← details_ok, hsplit]
  simp only [mem_written_concat _ (hnotBefore _), List.forall_mem_append, List.forall_mem_singleton,
    exists_and_left]
  refine and_congr_right fun _ => ?_
  simp only [intLine_eq_ok]
  constructor
  · intro h
    obtain ⟨n, value, n', hvalue, hn, _⟩ := h
    exact ⟨_, value, n', hvalue, hn, rfl⟩
  · intro h
    obtain ⟨_, value, n, hvalue, hn, _⟩ := h
    exact ⟨n, value, n, hvalue, hn, rfl⟩

end Says

/-! ### A transaction for an aggregator -/

section Report
variable (python : TransactionSurroundings) (aggregators : Aggregators) (attributes : BotAttributes)
  (transaction : Transaction)

/-- The transaction goes to the address of an aggregator. -/
def ToAggregator (table : Dict String Json) (toAddress : String) : Prop :=
  aggregators = some table ∧ transaction.get? "to" = some (.string toAddress) ∧
    (table.get? toAddress).isSome = true

/-- The banner and the details: these are right, and they are there to the last if the
aggregator is 1inch, the number of the block is known and the transaction readable. -/
def IsReport (table : Dict String Json) (toAddress : String) (lines : List LogLine) : Prop :=
  ∃ details, lines = .aggregatorTransaction :: details ∧
    (∀ line ∈ details, line.Says python attributes transaction) ∧
    ((∃ n, .int "value" n ∈ details) ↔ isOneInch python table (.string toAddress) = .ok true ∧
      (∃ newest, attributes.newestBlock python.number = .ok newest) ∧
        DetailsReadable python transaction)

variable {python aggregators attributes transaction}

theorem printTransactionDetails_fst : (printTransactionDetails python attributes transaction).1 =
    written (detailLines python attributes transaction) :=
  forEach_logNext (detailLines python attributes transaction) []

theorem processAggregatorTransaction_isReport (table : Dict String Json) (toAddress : String) :
    IsReport python attributes transaction table toAddress
      (processAggregatorTransaction python attributes table (.string toAddress) transaction).1 := by
  have hbanner : ∀ e raised, isOneInch python table (.string toAddress) = e → e ≠ .ok true →
      IsReport python attributes transaction table toAddress
        (([.aggregatorTransaction], raised) : List LogLine × Option PyError).1 := by
    intro e raised he hother
    refine ⟨[], rfl, fun line hmem => absurd hmem List.not_mem_nil, ?_⟩
    rw [he]
    simp [hother]
  rw [processAggregatorTransaction]
  cases hinch : isOneInch python table (.string toAddress) with
  | error e => exact hbanner _ _ hinch (by simp)
  | ok inch =>
    cases inch with
    | false => exact hbanner _ _ hinch (by simp)
    | true =>
      refine ⟨written (detailLines python attributes transaction), ?_, ?_, ?_⟩
      · rw [← printTransactionDetails_fst]
      · exact fun line hline => says_of_mem_written hline
      · rw [hinch, value_written_iff]
        simp

variable (python aggregators attributes transaction) in
/-- There is a report if the transaction goes to an aggregator, and else there is none. -/
theorem processTransaction_cases :
    ((processTransaction python aggregators attributes transaction).1 = [] ∧
        ¬∃ table toAddress, ToAggregator aggregators transaction table toAddress) ∨
      ∃ table toAddress, ToAggregator aggregators transaction table toAddress ∧
        IsReport python attributes transaction table toAddress
          (processTransaction python aggregators attributes transaction).1 := by
  unfold processTransaction Transaction.getItem
  cases hto : transaction.get? "to" with
  | none => exact .inl ⟨rfl, by simp [ToAggregator, hto]⟩
  | some value =>
    cases aggregators with
    | none => exact .inl ⟨rfl, by simp [ToAggregator]⟩
    | some table =>
      cases value with
      | string toAddress =>
        cases hinfo : table.get? toAddress with
        | none =>
          refine .inl ⟨by simp [lookUp, hinfo], ?_⟩
          simp [ToAggregator, hto, hinfo]
        | some info =>
          refine .inr ⟨table, toAddress, ⟨rfl, hto, by rw [hinfo]; rfl⟩, ?_⟩
          simp only [lookUp, hinfo]
          exact processAggregatorTransaction_isReport table toAddress
      | _ => exact .inl ⟨rfl, by simp [ToAggregator, hto]⟩

end Report

end CreamBots.App
