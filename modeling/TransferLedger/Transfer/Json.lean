import TransferLedger.Json.Form
import TransferLedger.Transfer
/-!
# Transfers as JSON

* `Transfer.toJson`: a transfer as one line of JSON;
* `Transfer.form`: the form that a transfer is read from;
* `Transfer.ofJson`: the transfer that a whole text holds.

Hashes, addresses and amounts are strings, the two numbers are numbers. A transfer without a
receiver is written with `null`, and read with `null` or without the member.
-/

namespace TransferLedger.Transfer

open Json

/-- A transfer as one line of JSON. -/
def toJson (t : Transfer) : List Char :=
  object [
    (Field.txHash.name, quote (Hex.encode t.txHash.toList)),
    (Field.logIndex.name, Decimal.ofNat t.logIndex.toNat),
    (Field.blockNumber.name, Decimal.ofNat t.blockNumber.toNat),
    (Field.token.name, quote (Hex.encode t.token.toList)),
    (Field.sender.name, quote (Hex.encode t.sender.toList)),
    (Field.receiver.name, optionalText (fun a => quote (Hex.encode a.toList)) t.receiver),
    (Field.amount.name, quote t.amount.toText)]

/-- The fields of a transfer that have been read. -/
structure Draft where
  txHash : Option TxHash := none
  logIndex : Option UInt64 := none
  blockNumber : Option UInt64 := none
  token : Option Address := none
  sender : Option Address := none
  receiver : Option (Option Address) := none
  amount : Option Amount := none
  deriving DecidableEq

namespace Draft

/-- Whether a field has been read. -/
def filled (d : Draft) : Field → Bool
  | .txHash => d.txHash.isSome
  | .logIndex => d.logIndex.isSome
  | .blockNumber => d.blockNumber.isSome
  | .token => d.token.isSome
  | .sender => d.sender.isSome
  | .receiver => d.receiver.isSome
  | .amount => d.amount.isSome

/-- A string of hexadecimal digits. -/
def bytes (n : Nat) : Reader (Bytes n) := refusing Hex.Fault.message (Hex.decode n) string

/-- A string of hexadecimal digits, or nothing for `null`. -/
def optionalBytes (n : Nat) : Reader (Option (Bytes n)) :=
  refusing Hex.Fault.message
    (fun
      | none => .ok none
      | some s => (Hex.decode n s).map some)
    (optional string)

/-- A string that holds an amount. -/
def amountText : Reader Amount := refusing Amount.Fault.message Amount.parse string

/-- Reads the value of a field. -/
def fill (d : Draft) : Field → Reader Draft
  | .txHash => mapping (fun v => { d with txHash := some v }) (bytes 32)
  | .logIndex => mapping (fun v => { d with logIndex := some v }) word
  | .blockNumber => mapping (fun v => { d with blockNumber := some v }) word
  | .token => mapping (fun v => { d with token := some v }) (bytes 20)
  | .sender => mapping (fun v => { d with sender := some v }) (bytes 20)
  | .receiver => mapping (fun v => { d with receiver := some v }) (optionalBytes 20)
  | .amount => mapping (fun v => { d with amount := some v }) amountText

/-- The transfer, when only the receiver may be missing. -/
def finish (d : Draft) : Option Transfer := do
  return {
    txHash := ← d.txHash
    logIndex := ← d.logIndex
    blockNumber := ← d.blockNumber
    token := ← d.token
    sender := ← d.sender
    receiver := d.receiver.getD none
    amount := ← d.amount }

end Draft

/-- The form that a transfer is read from. -/
def form : Form Field Draft Transfer where
  title := "struct TransferRecord"
  fields := Field.all
  name := Field.name
  omittable := (· == .receiver)
  trailing := (· == .receiver)
  blank := {}
  filled := Draft.filled
  fill := Draft.fill
  finish := Draft.finish

/-- The transfer that a whole text holds. -/
def ofJson (s : List Char) : Except Fault Transfer := decode form.read s

end TransferLedger.Transfer
