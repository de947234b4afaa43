import TransferLedger.Store.Cell
import TransferLedger.Store.Schema
import TransferLedger.Text.Blank
/-!
# A store in a table

A table with typed columns and constraints, in which transfers are rows of texts and integers.

* `Table`: the rows in the order in which they were added;
* `Cells.ofTransfer`: the row of a transfer;
* `Table.commit`: adds a batch, as a whole or not at all;
* `Cells.toTransfer`: the transfer that a row holds, if it holds one;
* `Table.recent`: the newest transfers, read from their rows;
* `Table.insertCells`: adds a row of any content that the constraints admit.
-/

namespace TransferLedger

/-- The rows of a table in the order in which they were added. -/
structure Table where
  rows : List Cells := []
  deriving DecidableEq

/-! ### Writing -/

/-- The row of a transfer. -/
def Cells.ofTransfer (t : Transfer) : Cells where
  txHash := .text (Hex.encode t.txHash.toList)
  logIndex := .integer t.logIndex.toNat
  blockNumber := .integer t.blockNumber.toNat
  token := .text (Hex.encode t.token.toList)
  sender := .text (Hex.encode t.sender.toList)
  receiver := match t.receiver with
    | some a => .text (Hex.encode a.toList)
    | none => .null
  amount := .text t.amount.toText

namespace Table

/-- Whether a text passes the check of the amount column. Its length is counted up to a null
character. -/
def amountPasses (s : List Char) : Bool :=
  s.head? != some '-' && (s.takeWhile (· != '\x00')).length ≤ Numeric.precision

/-- The first constraint that a row violates by itself: a required column without content, in the
order of the columns, and then the check of the amount. -/
def violation (r : Cells) : Option Violation :=
  match Transfer.Field.all.find? fun f => Schema.isRequired f && r.get f == .null with
  | some f => some (.notNull f.name)
  | none =>
    match r.amount with
    | .text s => if amountPasses s then none else some .amountCheck
    | _ => none

/-- Whether a row of the same name is present. -/
def holds (rows : List Cells) (r : Cells) : Bool := rows.any fun q => q.key == r.key

/-- The first number of a transfer that no stored integer equals. -/
def oversized (t : Transfer) : Option Ordinal :=
  [Ordinal.logIndex, .blockNumber].find? fun which => storedMax < (which.value t).toNat

/-- Adds the row of a transfer, unless its name is taken, and tells how many rows were added: one or
none. The constraints come first. -/
def insert (rows : List Cells) (t : Transfer) : Except Violation (Growth Cells) :=
  match oversized t with
  | some which => .error (.integerRange which (which.value t))
  | none =>
    let r := Cells.ofTransfer t
    match violation r with
    | some why => .error why
    | none => .ok (if holds rows r then ⟨rows, 0⟩ else ⟨rows ++ [r], 1⟩)

/-- Adds the rows of a batch, up to the first violation, and counts those that are added. -/
def insertAll : Growth Cells → List Transfer → Except Violation (Growth Cells)
  | g, [] => .ok g
  | g, t :: ts =>
    match insert g.rows t with
    | .ok added => insertAll ⟨added.rows, g.inserted + added.inserted⟩ ts
    | .error why => .error why

/-- Adds the transfers of a batch, all that are new or, after a violation, none. A batch that is
not empty is reported when it has been added. -/
def commit (batch : List Transfer) (table : Table) : Commit Table :=
  if batch.isEmpty then { result := .ok 0, store := table }
  else
    match insertAll { rows := table.rows } batch with
    | .error why => { result := .error (.constraintViolation why), store := table }
    | .ok grown =>
      { result := .ok grown.inserted
        store := ⟨grown.rows⟩
        events := [.batchCommitted batch.length grown.inserted] }

/-- Whether a character may stand around a numeral in a column of integers. -/
def isGap (c : Char) : Bool := c == ' ' || (9 ≤ c.toNat && c.toNat ≤ 13)

/-- The stored integer for which a text is a numeral. -/
def integerOf? (s : List Char) : Option Int :=
  match Amount.parse (Text.trimBy isGap s) with
  | .ok a => if -(storedMax : Int) - 1 ≤ a.toInt ∧ a.toInt ≤ storedMax then some a.toInt else none
  | .error _ => none

/-- A cell as a column keeps it: a column of texts writes integers out, and a column of integers
reads numerals. Other numerals, with a point, an exponent or too large a value, would pass through
floating point there; as cells hold no such number, their texts are kept. -/
def coerce (f : Transfer.Field) : Cell → Cell
  | .null => .null
  | .integer v => if Schema.isNumber f then .integer v else .text (Amount.ofInt v).toText
  | .text s => if Schema.isNumber f then (integerOf? s).elim (.text s) .integer else .text s

/-- A row as the table keeps it. -/
def coerceRow (r : Cells) : Cells where
  txHash := coerce .txHash r.txHash
  logIndex := coerce .logIndex r.logIndex
  blockNumber := coerce .blockNumber r.blockNumber
  token := coerce .token r.token
  sender := coerce .sender r.sender
  receiver := coerce .receiver r.receiver
  amount := coerce .amount r.amount

/-- A row of a transfer is kept as it is, so a batch is added without conversion. -/
theorem coerceRow_ofTransfer (t : Transfer) :
    coerceRow (Cells.ofTransfer t) = Cells.ofTransfer t := by
  cases hreceiver : t.receiver <;>
    simp [coerceRow, Cells.ofTransfer, coerce, Schema.isNumber, hreceiver]

/-- Adds a row of any content. A name that is taken is a violation here. -/
def insertCells (r : Cells) (table : Table) : Except StoreError Table :=
  let r := coerceRow r
  match violation r with
  | some why => .error (.constraintViolation why)
  | none =>
    if holds table.rows r then .error (.constraintViolation .duplicateKey)
    else .ok ⟨table.rows ++ [r]⟩

end Table

/-! ### Reading -/

/-- A row whose columns hold what their types say. -/
structure TypedRow where
  txHash : List Char
  logIndex : Int
  blockNumber : Int
  token : List Char
  sender : List Char
  receiver : Option (List Char)
  amount : List Char
  deriving DecidableEq

namespace Cells

/-- The fault of a column that holds something of another type. -/
def wrongType (r : Cells) (f : Transfer.Field) : DatabaseFault :=
  .columnType (r.get f).kind (Transfer.Field.all.findIdx (· == f)) f.name

/-- The text in a column. -/
def textIn (r : Cells) (f : Transfer.Field) : Except DatabaseFault (List Char) :=
  match r.get f with
  | .text s => .ok s
  | _ => .error (r.wrongType f)

/-- The integer in a column. -/
def integerIn (r : Cells) (f : Transfer.Field) : Except DatabaseFault Int :=
  match r.get f with
  | .integer v => .ok v
  | _ => .error (r.wrongType f)

/-- The text in a column that may be empty. -/
def optionalTextIn (r : Cells) (f : Transfer.Field) : Except DatabaseFault (Option (List Char)) :=
  match r.get f with
  | .null => .ok none
  | .text s => .ok (some s)
  | _ => .error (r.wrongType f)

/-- The content of a row, or the first column of the wrong type. -/
def typed (r : Cells) : Except DatabaseFault TypedRow := do
  return {
    txHash := ← r.textIn .txHash
    logIndex := ← r.integerIn .logIndex
    blockNumber := ← r.integerIn .blockNumber
    token := ← r.textIn .token
    sender := ← r.textIn .sender
    receiver := ← r.optionalTextIn .receiver
    amount := ← r.textIn .amount }

end Cells

namespace TypedRow

/-- The byte string in a column. -/
def bytes (n : Nat) (f : Transfer.Field) (s : List Char) : Except Corruption (Bytes n) :=
  match Hex.decode n s with
  | .ok b => .ok b
  | .error why => .error (.hex f why)

/-- The number in a column. -/
def word (f : Transfer.Field) (v : Int) : Except Corruption UInt64 :=
  if v < 0 then .error (.belowZero f) else .ok (UInt64.ofNat v.toNat)

/-- The byte string in a column that may be empty. -/
def optionalBytes (n : Nat) (f : Transfer.Field) :
    Option (List Char) → Except Corruption (Option (Bytes n))
  | none => .ok none
  | some s =>
    match bytes n f s with
    | .ok b => .ok (some b)
    | .error why => .error why

/-- The amount in a column. -/
def amountIn (s : List Char) : Except Corruption Amount :=
  match Amount.parse s with
  | .ok a => .ok a
  | .error why => .error (.amount why)

/-- The transfer that a row holds, or the first column that cannot be read. -/
def toTransfer (r : TypedRow) : Except Corruption Transfer := do
  return {
    txHash := ← bytes 32 .txHash r.txHash
    logIndex := ← word .logIndex r.logIndex
    blockNumber := ← word .blockNumber r.blockNumber
    token := ← bytes 20 .token r.token
    sender := ← bytes 20 .sender r.sender
    receiver := ← optionalBytes 20 .receiver r.receiver
    amount := ← amountIn r.amount }

end TypedRow

/-- The transfer that a row holds. The types of all columns come before the content of any. -/
def Cells.toTransfer (r : Cells) : Except StoreError Transfer :=
  match r.typed with
  | .error why => .error (.database why)
  | .ok row =>
    match row.toTransfer with
    | .ok t => .ok t
    | .error why => .error (.corrupt why)

namespace Table

/-- Whether a row may stand before another in a listing. -/
def newerOrSame (a b : Cells) : Bool :=
  ((Cell.compare b.blockNumber a.blockNumber).then (Cell.compare b.logIndex a.logIndex)).isLE

/-- The rows in listing order; those of one block and log index in the order in which they were
added. -/
def listing (table : Table) : List Cells := table.rows.mergeSort newerOrSame

/-- The transfers of some rows, or the error of the first row that holds none. -/
def readAll : List Cells → Except StoreError (List Transfer)
  | [] => .ok []
  | r :: rs =>
    match r.toTransfer with
    | .error error => .error error
    | .ok t =>
      match readAll rs with
      | .error error => .error error
      | .ok ts => .ok (t :: ts)

/-- The newest transfers. Only the rows within the limit are read. No table has as many rows as
the largest stored integer, so a limit beyond that integer limits nothing. -/
def recent (limit : Nat) (table : Table) : Except StoreError (List Transfer) :=
  readAll (table.listing.take limit)

instance : Store Table where
  commit := commit
  recent := recent
  count table := table.rows.length

end Table

end TransferLedger
