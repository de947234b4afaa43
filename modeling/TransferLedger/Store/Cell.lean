import TransferLedger.Transfer
/-!
# Cells of a table

* `Cell`: nothing, an integer or a text, with an order on them;
* `Cells`: the cells of one row, a column for each field of a transfer.

In the order, nothing stands before every integer and every integer before every text; texts are
ordered by code points.

The columns would admit two more kinds of content, floating-point numbers and plain bytes. These are
left out: no batch and no row of texts and integers brings one, with the exception that
`Table.coerce` names.
-/

namespace TransferLedger

/-- The content of a cell. -/
inductive Cell
  | null
  | integer (v : Int)
  | text (s : List Char)
  deriving DecidableEq, Repr

namespace Cell

/-- The name of what a cell holds, for messages. -/
def kind : Cell → String
  | .null => "Null"
  | .integer _ => "Integer"
  | .text _ => "Text"

/-- How two texts compare. -/
def compareTexts : List Char → List Char → Ordering
  | [], [] => .eq
  | [], _ :: _ => .lt
  | _ :: _, [] => .gt
  | c :: s, d :: t => (compare c.toNat d.toNat).then (compareTexts s t)

/-- How two cells compare. -/
protected def compare : Cell → Cell → Ordering
  | .null, .null => .eq
  | .null, _ => .lt
  | _, .null => .gt
  | .integer a, .integer b => compare a b
  | .integer _, .text _ => .lt
  | .text _, .integer _ => .gt
  | .text s, .text t => compareTexts s t

end Cell

/-- The cells of a row. -/
structure Cells where
  txHash : Cell
  logIndex : Cell
  blockNumber : Cell
  token : Cell
  sender : Cell
  receiver : Cell
  amount : Cell
  deriving DecidableEq

namespace Cells

/-- The cell of a column. -/
def get (r : Cells) : Transfer.Field → Cell
  | .txHash => r.txHash
  | .logIndex => r.logIndex
  | .blockNumber => r.blockNumber
  | .token => r.token
  | .sender => r.sender
  | .receiver => r.receiver
  | .amount => r.amount

/-- The two cells that name a row. -/
def key (r : Cells) : Cell × Cell := (r.txHash, r.logIndex)

end Cells

end TransferLedger
