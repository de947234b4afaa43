import TransferLedger.Store.Table
import TransferLedger.Text.Utf8
/-!
# Pages of a table's file

A table's file is counted in pages of one size. One of them describes the table. The rows fill
pages in the order in which they were added. Two indexes, by name and by age, have pages of
their own. Pages of one kind, if there are several, take another one that lists them.

* `Page`: a page of an index;
* `Page.rowSize`, `Page.itemSize`: how many bytes a row takes, and what an index tells of it;
* `Page.insert`: adds an item to an index;
* `Table.pages`: how many pages a table takes.

When an item has no place in its page, the pages around it are filled anew from the left, each
as far as it goes; then from the right each takes items from its left neighbour as long as that
makes the two more alike.
-/

namespace TransferLedger

/-- An item of an index: a row, and how many bytes the item takes. -/
structure Page.Item where
  row : Cells
  size : Nat

/-- A page of an index: its items, and the item between it and the page before. -/
structure Page where
  divider : Option Page.Item := none
  items : List Page.Item := []

namespace Page

/-! ### Sizes -/

/-- How many bytes the items of a page may take. -/
def room : Nat := 4088

/-- How many bytes the position of an item in its page takes. -/
def positionSize : Nat := 2

/-- How many bytes the time at which a row is added takes, with its tag. -/
def timeSize : Nat := 5

/-- How many groups of seven bits a number takes. -/
def groups (n : Nat) : Nat := n.log2 / 7 + 1

/-- How many bytes an integer takes with its sign: none if it is zero or one, and never five or
seven. -/
def integerSize (v : Int) : Nat :=
  if v = 0 || v = 1 then 0
  else
    let n := match v with
      | .ofNat n => n
      | .negSucc n => n
    let bytes := (n.log2 + 9) / 8
    if bytes = 5 || bytes = 7 then bytes + 1 else bytes

/-- How many bytes a cell takes, with a tag that tells its type and length. -/
def cellSize : Cell → Nat
  | .null => 1
  | .integer v => 1 + integerSize v
  | .text s =>
    let bytes := (Text.Utf8.encode s).length
    groups (2 * bytes + 13) + bytes

/-- How many bytes some cells take behind each other. In front of them there is a byte for the
length of the tags. -/
def recordSize (cells : List Cell) : Nat := cells.foldl (fun n c => n + cellSize c) 1

/-- How many bytes a row takes in a page, given its number. -/
def rowSize (number : Nat) (r : Cells) : Nat :=
  let bytes := recordSize (Transfer.Field.all.map r.get) + timeSize
  groups bytes + groups number + bytes + positionSize

/-- How many bytes an item takes in a page, given what it tells of its row. An item of less than
four bytes has four. -/
def itemSize (cells : List Cell) : Nat :=
  let bytes := recordSize cells
  max 4 (groups bytes + bytes) + positionSize

/-- How many bytes some items take. -/
def used (items : List Item) : Nat := items.foldl (fun n e => n + e.size) 0

/-! ### Filling pages -/

/-- Fills pages with items from the left, `taken` bytes of the first being in use. An item that
has no place becomes the divider of the next page. -/
def fill (divider : Option Item) (taken : Nat) : List Item → List Page
  | [] => [{ divider }]
  | e :: r =>
    if taken + e.size ≤ room then
      match fill divider (taken + e.size) r with
      | p :: ps => { p with items := e :: p.items } :: ps
      | [] => []
    else { divider } :: fill (some e) 0 r

/-- Moves items from the end of a page over the divider to the page behind it, which is not to
stay empty. The items of the page are given from the end; `extra` bytes count for them. -/
def shift (extra : Nat) : List Item → Item → List Item → List Item × Item × List Item
  | [], d, right => ([], d, right)
  | e :: left, d, right =>
    if !right.isEmpty && used (e :: left) + extra < used right + d.size + e.size then
      (e :: left, d, right)
    else shift extra left e (d :: right)

/-- Evens out each page with the next one, from the right. -/
def settle : List Page → List Page
  | [] => []
  | p :: ps =>
    match settle ps with
    | [] => [p]
    | q :: qs =>
      match q.divider with
      | none => p :: q :: qs
      | some d =>
        let extra := if qs.isEmpty then positionSize else 0
        let (left, d, right) := shift extra p.items.reverse d q.items
        { p with items := left.reverse } :: { divider := some d, items := right } :: qs

/-- Distributes the items of neighbouring pages anew. -/
def balance : List Page → List Page
  | [] => []
  | p :: ps =>
    let items := p.items ++ ps.flatMap fun q => q.divider.toList ++ q.items
    settle (fill p.divider 0 items)

/-- Adds an item behind those that may stand before it. -/
def place (before : Cells → Cells → Bool) (e : Item) (items : List Item) : List Item :=
  let (front, rest) := items.span fun q => before q.row e.row
  front ++ e :: rest

/-- Adds an item to the pages of an index. If its page becomes too full, three pages around it
are balanced. -/
def insert (before : Cells → Cells → Bool) (pages : List Page) (e : Item) : List Page :=
  let i := (pages.tail.takeWhile fun p => p.divider.all fun d => before d.row e.row).length
  let pages := pages.modify i fun p => { p with items := place before e p.items }
  if pages[i]?.all fun p => used p.items ≤ room then pages
  else
    let first := min (i - 1) (pages.length - 3)
    pages.take first ++ balance ((pages.drop first).take 3) ++ pages.drop (first + 3)

/-! ### Counting pages -/

/-- How many pages records of given sizes fill one after the other, `taken` bytes of the first
being in use. -/
def countFilled (taken : Nat) : List Nat → Nat
  | [] => 1
  | n :: ns => if taken + n ≤ room then countFilled (taken + n) ns else countFilled n ns + 1

/-- How many pages there are with the one that lists them, if there are several. -/
def withListing (pages : Nat) : Nat := if pages ≤ 1 then pages else pages + 1

end Page

namespace Table

/-- The rows with their numbers. -/
def numbered (table : Table) : List (Cells × Nat) := table.rows.zipIdx 1

/-- Whether a row may stand before another in the order of names. -/
def nameBefore (a b : Cells) : Bool :=
  ((Cell.compare a.txHash b.txHash).then (Cell.compare a.logIndex b.logIndex)).isLE

/-- The pages of an index, given its order and the columns that it tells of. -/
def index (before : Cells → Cells → Bool) (columns : List Transfer.Field) (table : Table) :
    List Page :=
  table.numbered.foldl (fun pages (row, number) =>
    let size := Page.itemSize (columns.map row.get ++ [.integer number])
    Page.insert before pages { row, size }) [{}]

/-- How many pages a table takes. -/
def pages (table : Table) : Nat :=
  let rowPages := Page.countFilled 0 (table.numbered.map fun (r, n) => Page.rowSize n r)
  let byName := table.index nameBefore [.txHash, .logIndex]
  let byAge := table.index newerOrSame [.blockNumber, .logIndex]
  1 + Page.withListing rowPages + Page.withListing byName.length + Page.withListing byAge.length

end Table

end TransferLedger
