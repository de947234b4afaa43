import TransferLedger.Json.Scalar
import TransferLedger.Store.Table
import TransferLedger.Source.Lines
/-!
# Tables as files

A table is kept in a file behind a heading, which tells how many times the file has been changed,
and how many pages it takes. In which format that is makes no difference to the program.

* `Snapshot`: a table with what the heading of its file tells;
* `FileFormat`: what bytes stand for a table in its file;
* `Snapshot.encode`, `Snapshot.decode`: the format in use, with a line of text for each row, which
  holds the cells of the row as a JSON list.
-/

namespace TransferLedger

/-- A table with the number of changes to its file and the number of pages that it takes. -/
structure Snapshot where
  changes : UInt32
  pages : UInt32
  table : Table
  deriving DecidableEq

/-- What bytes stand for a table in its file. -/
class FileFormat where
  /-- The bytes of the file. -/
  encode : Snapshot → List UInt8
  /-- What is in a file, where there is a table in it. -/
  decode : List UInt8 → Option Snapshot

namespace Snapshot

open Json

/-- The bytes that every heading begins with. -/
def title : List UInt8 := Text.Utf8.encode "transfer ledger table 1 ".toList

/-- A number in four bytes, the high ones first. -/
def word (n : UInt32) : List UInt8 :=
  [(n / 16777216).toUInt8, (n / 65536).toUInt8, (n / 256).toUInt8, n.toUInt8]

/-- The heading of a table's file. It ends in a byte with which no character begins, so no file
of text is taken for a table. -/
def heading (changes pages : UInt32) : List UInt8 :=
  title ++ word changes ++ word pages ++ List.replicate 60 0x20 ++ word changes
    ++ [0x20, 0x20, 0x20, 0x88]

/-- A cell as JSON. -/
def cell : Cell → List Char
  | .null => ['n', 'u', 'l', 'l']
  | .integer v => (Amount.ofInt v).toText
  | .text s => quote s

/-- Texts with commas between them. -/
def separated : List (List Char) → List Char
  | [] => []
  | [s] => s
  | s :: r => s ++ ',' :: separated r

/-- A row as a line of JSON. -/
def row (r : Cells) : List Char :=
  '[' :: separated (Transfer.Field.all.map fun f => cell (r.get f)) ++ [']']

/-- The bytes of a table's file. -/
def encode (s : Snapshot) : List UInt8 :=
  heading s.changes s.pages
    ++ 0x0a :: s.table.rows.flatMap fun r => Text.Utf8.encode (row r ++ ['\n'])

/-- A cell at the front of a text. -/
def readCell : Reader Cell := fun s =>
  match skipSpace s with
  | [] => .error .truncated
  | c :: r =>
    if c = 'n' then
      match readWord ['u', 'l', 'l'] r with
      | .ok r => .ok (.null, r)
      | .error f => .error f
    else if c = '"' then
      match readText r with
      | .ok (s, r) => .ok (.text s, r)
      | .error f => .error f
    else
      match readNumber (c :: r) with
      | .ok (.natural n, r) => .ok (.integer n, r)
      | .ok (.negative n, r) => .ok (.integer (-n), r)
      | .ok (.floating, _) => .error .malformed
      | .error f => .error f

/-- A cell behind a given character. -/
def cellBehind (opener : Char) : Reader Cell := fun s =>
  match skipSpace s with
  | [] => .error .truncated
  | c :: r => if c = opener then readCell r else .error .malformed

/-- The row in a line. -/
def readRow (line : List Char) : Except Fault Cells := do
  let (txHash, r) ← cellBehind '[' line
  let (logIndex, r) ← cellBehind ',' r
  let (blockNumber, r) ← cellBehind ',' r
  let (token, r) ← cellBehind ',' r
  let (sender, r) ← cellBehind ',' r
  let (receiver, r) ← cellBehind ',' r
  let (amount, r) ← cellBehind ',' r
  if skipSpace r = [']'] then
    return { txHash, logIndex, blockNumber, token, sender, receiver, amount }
  else .error .malformed

/-- The row in the bytes of a line, if there is one. -/
def rowOf? (line : List UInt8) : Option Cells := do
  let text ← (Text.Utf8.decode line).toOption
  (readRow text).toOption

/-- The number that four bytes hold, the high ones first. -/
def number (bytes : List UInt8) : UInt32 :=
  (bytes.take 4).foldl (fun n b => 256 * n + b.toUInt32) 0

/-- What is in a file, where there is a table in it. -/
def decode (bytes : List UInt8) : Option Snapshot :=
  let changes := number (bytes.drop title.length)
  let pages := number (bytes.drop (title.length + 4))
  let start := heading changes pages ++ [0x0a]
  if start.isPrefixOf bytes then
    ((splitLines (bytes.drop start.length)).mapM rowOf?).map fun rows =>
      { changes, pages, table := ⟨rows⟩ }
  else none

instance : FileFormat where
  encode := encode
  decode := decode

end Snapshot

end TransferLedger
