import TransferLedger.Amount
import TransferLedger.Hex
/-!
# Token transfers

One transfer of a token, as an event log reports it.

* `Transfer`: the seven fields of a report;
* `Transfer.key`: the transaction hash and the log index, which name a transfer;
* `Transfer.Field`: the fields, with the names they have in files and tables.
-/

namespace TransferLedger

/-- A transfer of a token between two accounts. A transfer that creates or destroys tokens may
have no receiver. -/
structure Transfer where
  txHash : TxHash
  logIndex : UInt64
  blockNumber : UInt64
  token : Address
  sender : Address
  receiver : Option Address
  amount : Amount
  deriving DecidableEq

namespace Transfer

/-- What names a transfer. -/
abbrev Key := TxHash × UInt64

/-- The name of a transfer. -/
def key (t : Transfer) : Key := (t.txHash, t.logIndex)

/-- The first eight bytes of the transaction hash, for messages. -/
def shortHash (t : Transfer) : List Char := Hex.encode (t.txHash.toList.take 8)

/-- The fields of a transfer. -/
inductive Field
  | txHash
  | logIndex
  | blockNumber
  | token
  | sender
  | receiver
  | amount
  deriving DecidableEq, Repr

/-- The fields in the order in which they are written. -/
def Field.all : List Field :=
  [.txHash, .logIndex, .blockNumber, .token, .sender, .receiver, .amount]

theorem Field.mem_all (f : Field) : f ∈ Field.all := by
  cases f <;> decide

/-- The name of a field in files and tables. -/
def Field.name : Field → String
  | .txHash => "tx_hash"
  | .logIndex => "log_index"
  | .blockNumber => "block_number"
  | .token => "token_address"
  | .sender => "from_address"
  | .receiver => "to_address"
  | .amount => "amount"

end Transfer

end TransferLedger
