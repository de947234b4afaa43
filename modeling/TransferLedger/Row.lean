import TransferLedger.Direction
/-!
# Display rows

What a listing shows of a transfer: texts in place of bytes, and the direction.

* `Row`: the columns of a listing;
* `Transfer.row`: the row of a transfer.
-/

namespace TransferLedger

/-- A line of a listing. -/
structure Row where
  txHash : List Char
  logIndex : UInt64
  blockNumber : UInt64
  token : List Char
  sender : List Char
  receiver : Option (List Char)
  amount : List Char
  direction : Direction
  deriving DecidableEq

/-- The row of a transfer. -/
def Transfer.row (t : Transfer) : Row where
  txHash := Hex.encode t.txHash.toList
  logIndex := t.logIndex
  blockNumber := t.blockNumber
  token := Hex.encode t.token.toList
  sender := Hex.encode t.sender.toList
  receiver := t.receiver.map fun a => Hex.encode a.toList
  amount := t.amount.toText
  direction := t.direction

end TransferLedger
