import TransferLedger.Database.Neighbours
import TransferLedger.Store.Page
import TransferLedger.Store.Snapshot
/-!
# Databases

A database is a table that is kept in a file, in whatever format, or in memory while it is open.

* `Database`: an open database, which is a store;
* `Database.openAt`: opens the database of a name;
* `Database.close`: keeps its table in its file.
-/

namespace TransferLedger

/-- An open database. -/
structure Database where
  table : Table := {}
  /-- How many times its file has been changed. What goes through a log does not count. -/
  changes : UInt32 := 0
  /-- How many pages its file had when it was opened. -/
  pages : UInt32 := 0
  /-- Where its file is, unless it is private. -/
  place : Option Place := none
  readOnly : Bool := false
  /-- Whether no journal can be made for a change. -/
  blocked : Bool := false
  log : LogUse := .unused
  deriving DecidableEq

/-- An attempt to open a database: the directory afterwards, what was reported, and the database
or why there is none. -/
structure Opening where
  directory : Directory
  events : List Event := []
  result : Except DatabaseFault Database

namespace Database

/-! ### As a store -/

/-- The refusal of a batch that may not be written, at its first transfer. -/
def refusal (t : Transfer) : StoreError :=
  match Table.oversized t with
  | some which => .constraintViolation (.integerRange which (which.value t))
  | none => .database .readOnly

/-- Adds the transfers of a batch. A database that may not be written refuses every batch that is
not empty. A batch that brings nothing new changes nothing. -/
def commit (batch : List Transfer) (db : Database) : Commit Database :=
  match db.readOnly, batch with
  | true, t :: _ => { result := .error (refusal t), store := db }
  | _, _ =>
    let c := db.table.commit batch
    match c.result with
    | .ok (_ + 1) =>
      if db.blocked then { result := .error (.database .cannotOpenBeside), store := db }
      else
        let changes := if db.log = .unused then db.changes + 1 else db.changes
        { result := c.result, store := { db with table := c.store, changes }, events := c.events }
    | _ => { result := c.result, store := db, events := c.events }

instance : Store Database where
  commit := commit
  recent limit db := db.table.recent limit
  count db := Store.count db.table

/-! ### Opening and closing -/

variable [FileFormat]

/-- Opens the file of a database, which is made if the access allows it. -/
def openFile (name : List Char) (l : Location) (p : Place) (d : Directory) :
    Except DatabaseFault Directory :=
  if l.model.all d.isThere then
    match d.lookup p with
    | some (.file _) => .ok d
    | some .folder => .error (if l.access == .readOnly then .unreadable else .cannotOpen name)
    | none =>
      if l.access == .create && d.lookup p.dropLast == some .folder then .ok (d.put p (.file []))
      else .error (.cannotOpen name)
  else .error .unreadable

/-- How many changes it takes to make the table in an empty file. -/
def makingChanges : UInt32 := 2

/-- The table with the heading of its file. -/
def snapshot (changes : UInt32) (table : Table) : Snapshot where
  changes
  pages := .ofNat table.pages
  table

/-- Makes the table in an empty file. While it is made there is a journal. -/
def make (l : Location) (p : Place) (d : Directory) : Attempt Database :=
  if l.isReadOnly then ⟨d, .error .readOnly⟩
  else if Neighbours.isJournalBlocked p d then ⟨d, .error .cannotOpenBeside⟩
  else
    let made := snapshot makingChanges {}
    let d := Neighbours.removeJournal p (d.put p (.file (FileFormat.encode made)))
    ⟨d, .ok { place := some p, changes := made.changes, pages := made.pages }⟩

/-- The content of the file at a place. -/
def contentAt (p : Place) (d : Directory) : List UInt8 :=
  match d.lookup p with
  | some (.file bytes) => bytes
  | _ => []

/-- Reads the table in a file that has been opened, and makes it if the file is empty. -/
def read (l : Location) (p : Place) (d : Directory) : Attempt Database :=
  let content := contentAt p d
  let settled := if l.immutable then ⟨d, .ok .unused⟩ else Neighbours.settle l content p d
  settled.andThen fun log d =>
    if Neighbours.isBlank content then make l p d
    else
      match FileFormat.decode content with
      | none => ⟨log.close p d, .error .notADatabase⟩
      | some kept =>
        ⟨d, .ok {
          table := kept.table
          changes := kept.changes
          pages := kept.pages
          place := some p
          readOnly := l.isReadOnly || log = .fixed
          blocked := log = .unused && Neighbours.isJournalBlocked p d
          log }⟩

/-- Opens the database at a location. -/
def openLocation (name : List Char) (l : Location) (d : Directory) : Opening :=
  if l.isPrivate then
    if l.isTooLong then { directory := d, result := .error (.cannotOpen name) }
    else
      { directory := d
        events := [.storeOpened]
        result := if l.isReadOnly then .error .readOnly else .ok {} }
  else
    match d.resolve l.path with
    | none => { directory := d, result := .error (.cannotOpen name) }
    | some p =>
      match openFile name l p d with
      | .error why => { directory := d, result := .error why }
      | .ok d =>
        let a := read l p d
        { directory := a.directory, events := [.storeOpened], result := a.result }

/-- Opens the database of a name. -/
def openAt (name : List Char) (d : Directory) : Opening :=
  match Location.parse name with
  | .error why => { directory := d, result := .error (.location why) }
  | .ok l => openLocation name l d

/-- The places that matter to the database of a name: its own, those on the way, and those of the
files beside it. -/
def places (home : Place) (name : List Char) : List Place :=
  match Location.parse name with
  | .error _ => []
  | .ok l =>
    if l.isPrivate then []
    else
      let p := Place.shorten home l.path
      Place.along home l.path ++ (l.model.map (Place.along home)).getD [] ++
        p.dropLast :: p :: Neighbours.places p

/-- What the file of a database is to hold when it is closed. All that has gone through a log
counts as one change if it has made the file grow, and as none otherwise. -/
def kept (db : Database) : Snapshot :=
  let s := snapshot db.changes db.table
  if db.log ≠ .unused && db.pages < s.pages then { s with changes := s.changes + 1 } else s

/-- Closes a database, whose table is kept in its file. A file that holds the table already is
left alone. To write another one takes a journal, unless the change goes through a log. -/
def close (db : Database) (d : Directory) : Directory :=
  match db.place with
  | none => d
  | some p =>
    let file := Entry.file (FileFormat.encode db.kept)
    let d :=
      if d.lookup p = some file then d
      else if db.log = .unused then Neighbours.removeJournal p (d.put p file)
      else d.put p file
    db.log.close p d

end Database

end TransferLedger
