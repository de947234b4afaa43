import TransferLedger.Direction.Json
import TransferLedger.Json.Form
import TransferLedger.Row
/-!
# Display rows as JSON

* `Row.toJson`: a row as one line of JSON;
* `Row.form`: the form that a row is read from;
* `Row.ofJson`: the row that a whole text holds.

The strings of a row are read as they are. An object may omit the receiver, a list may not.
-/

namespace TransferLedger.Row

open Json

/-- The columns of a row. -/
inductive Field
  | txHash
  | logIndex
  | blockNumber
  | token
  | sender
  | receiver
  | amount
  | direction
  deriving DecidableEq, Repr

/-- The columns in the order in which they are written. -/
def Field.all : List Field :=
  [.txHash, .logIndex, .blockNumber, .token, .sender, .receiver, .amount, .direction]

/-- The name of a column. -/
def Field.name : Field → String
  | .txHash => "tx_hash"
  | .logIndex => "log_index"
  | .blockNumber => "block_number"
  | .token => "token"
  | .sender => "from"
  | .receiver => "to"
  | .amount => "amount"
  | .direction => "direction"

/-- A row as one line of JSON. -/
def toJson (row : Row) : List Char :=
  object [
    (Field.txHash.name, quote row.txHash),
    (Field.logIndex.name, Decimal.ofNat row.logIndex.toNat),
    (Field.blockNumber.name, Decimal.ofNat row.blockNumber.toNat),
    (Field.token.name, quote row.token),
    (Field.sender.name, quote row.sender),
    (Field.receiver.name, optionalText quote row.receiver),
    (Field.amount.name, quote row.amount),
    (Field.direction.name, row.direction.toJson)]

/-- The columns of a row that have been read. -/
structure Draft where
  txHash : Option (List Char) := none
  logIndex : Option UInt64 := none
  blockNumber : Option UInt64 := none
  token : Option (List Char) := none
  sender : Option (List Char) := none
  receiver : Option (Option (List Char)) := none
  amount : Option (List Char) := none
  direction : Option Direction := none
  deriving DecidableEq

namespace Draft

/-- Whether a column has been read. -/
def filled (d : Draft) : Field → Bool
  | .txHash => d.txHash.isSome
  | .logIndex => d.logIndex.isSome
  | .blockNumber => d.blockNumber.isSome
  | .token => d.token.isSome
  | .sender => d.sender.isSome
  | .receiver => d.receiver.isSome
  | .amount => d.amount.isSome
  | .direction => d.direction.isSome

/-- Reads the value of a column. -/
def fill (d : Draft) : Field → Reader Draft
  | .txHash => mapping (fun v => { d with txHash := some v }) string
  | .logIndex => mapping (fun v => { d with logIndex := some v }) word
  | .blockNumber => mapping (fun v => { d with blockNumber := some v }) word
  | .token => mapping (fun v => { d with token := some v }) string
  | .sender => mapping (fun v => { d with sender := some v }) string
  | .receiver => mapping (fun v => { d with receiver := some v }) (optional string)
  | .amount => mapping (fun v => { d with amount := some v }) string
  | .direction => mapping (fun v => { d with direction := some v }) Direction.read

/-- The row, when only the receiver may be missing. -/
def finish (d : Draft) : Option Row := do
  return {
    txHash := ← d.txHash
    logIndex := ← d.logIndex
    blockNumber := ← d.blockNumber
    token := ← d.token
    sender := ← d.sender
    receiver := d.receiver.getD none
    amount := ← d.amount
    direction := ← d.direction }

end Draft

/-- The form that a row is read from. -/
def form : Form Field Draft Row where
  title := "struct TransferRow"
  fields := Field.all
  name := Field.name
  omittable := (· == .receiver)
  trailing := fun _ => false
  blank := {}
  filled := Draft.filled
  fill := Draft.fill
  finish := Draft.finish

/-- The row that a whole text holds. -/
def ofJson (s : List Char) : Except Fault Row := decode form.read s

end TransferLedger.Row
