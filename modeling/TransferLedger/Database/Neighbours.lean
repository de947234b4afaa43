import TransferLedger.Directory
import TransferLedger.Store
/-!
# The files beside a database

Beside the file of a database there may be others that carry its name with an ending: a journal,
a log of changes with an index, and a lock. What is left of them from earlier is settled when the
database is read for the first time. Nothing that is left can belong to the table, so settling it
does not change the table.

* `Attempt`: an attempt at something, with the directory afterwards;
* `Neighbours.lockFault`: why a database cannot be locked;
* `Neighbours.settleJournal`, `Neighbours.settleLog`: what becomes of a journal and of a log;
* `LogUse`: how a log is used from then on.
-/

namespace TransferLedger

/-- An attempt at something, with the directory afterwards, also after a failure. -/
structure Attempt (α : Type) where
  directory : Directory
  result : Except DatabaseFault α

/-- An attempt followed by another, unless it fails. -/
def Attempt.andThen {α β : Type} (a : Attempt α) (next : α → Directory → Attempt β) : Attempt β :=
  match a.result with
  | .ok x => next x a.directory
  | .error why => ⟨a.directory, .error why⟩

/-- How a log of changes is used while a database is open. -/
inductive LogUse
  /-- There is none; changes go through a journal. -/
  | unused
  /-- It stays when the database is closed. -/
  | kept
  /-- It stays, and the database cannot be changed through it. -/
  | fixed
  /-- It is removed when the database is closed, and so is its index if that is in a file. -/
  | consumed (index : Bool)
  deriving DecidableEq, Repr

namespace Neighbours

/-- The ending of the journal's name. -/
def journalEnding : List UInt8 := Text.Utf8.encode "-journal".toList

/-- The ending of the name of the log of changes. -/
def logEnding : List UInt8 := Text.Utf8.encode "-wal".toList

/-- The ending of the name of the index of that log. -/
def indexEnding : List UInt8 := Text.Utf8.encode "-shm".toList

/-- The ending of the name of the lock. -/
def lockEnding : List UInt8 := Text.Utf8.encode ".lock".toList

/-- The places of all of them. -/
def places (p : Place) : List Place :=
  [journalEnding, logEnding, indexEnding, lockEnding].map p.beside

/-- Whether a place beside another is out of reach because its name is too long. -/
def isTooLong (p : Place) : Bool := nameLimit < (p.getLast?.getD []).length

/-- Whether a database file of this content is taken for empty. A single byte counts as none. -/
def isBlank (content : List UInt8) : Bool := content.length ≤ 1

/-- Whether a file may be written at a location. -/
def isWritable (l : Location) : Bool := !l.isReadOnly

/-- Why a database cannot be locked. Only a lock file may be in the way. -/
def lockFault (l : Location) (p : Place) (d : Directory) : Option DatabaseFault :=
  let lock := p.beside lockEnding
  if l.locking != .lockFile || l.unlocked then none
  else if isTooLong lock then some .unreadable
  else if (d.lookup lock).isSome then some .locked
  else none

/-- Whether somebody seems to be changing the database. A lock file says so, also one's own. -/
def seemsReserved (l : Location) (p : Place) (d : Directory) : Bool :=
  l.locking == .lockFile && (!l.unlocked || (d.lookup (p.beside lockEnding)).isSome)

/-- Whether a journal left from another database can be removed: the database can be locked for
writing. -/
def canDiscard (l : Location) : Bool := isWritable l || l.unlocked || l.locking == .absent

/-- Settles a journal with content, unless somebody seems to be using it. That of an empty database
is left from another one, and is removed if it can be. Otherwise a journal that opens with the byte
zero is done with, and any other has to be rolled back. -/
def settleJournal (l : Location) (content : List UInt8) (p : Place) (d : Directory) :
    Attempt Unit :=
  let journal := p.beside journalEnding
  if seemsReserved l p d then ⟨d, .ok ()⟩
  else
    match d.lookup journal, isBlank content with
    | none, _ | some (.file []), _ | some .folder, true => ⟨d, .ok ()⟩
    | some (.file _), true => ⟨if canDiscard l then d.removeFile journal else d, .ok ()⟩
    | some .folder, false => ⟨d, .error .unreadable⟩
    | some (.file (first :: _)), false =>
      if first = 0 then ⟨d, .ok ()⟩
      else if isWritable l then ⟨d.removeFile journal, .ok ()⟩
      else ⟨d, .error .readOnly⟩

/-- The bytes that an index begins with. -/
def indexBytes : List UInt8 := [0x18, 0xe2, 0x2d, 0x00]

/-- Whether a log can be followed without an index of one's own: it is too short to hold anything,
or it has no salt. -/
def isPlain (log : List UInt8) : Bool :=
  log.length < 32 || ((log.drop 16).take 8).all (· == 0)

/-- Opens the index of a log. An index that is only read, or cannot be written, says nothing about
the log. Who keeps the first lock alone has the index in memory. -/
def openIndex (l : Location) (log : List UInt8) (p : Place) (d : Directory) : Attempt LogUse :=
  let index := p.beside indexEnding
  if l.locking == .exclusive && isWritable l then ⟨d, .ok (.consumed false)⟩
  else
    match d.lookup index, l.fixedIndex with
    | none, true => ⟨d, .error .cannotOpenBeside⟩
    | some .folder, _ | some (.file _), true =>
      ⟨d, if isPlain log then .ok .fixed else .error .lockProtocol⟩
    | none, false | some (.file _), false =>
      ⟨d.put index (.file indexBytes), .ok (if isWritable l then .consumed true else .kept)⟩

/-- Settles a log of changes. That of an empty database is left from another one, and is removed.
For any other database it is taken up, which takes locks on the file. -/
def settleLog (l : Location) (content : List UInt8) (p : Place) (d : Directory) :
    Attempt LogUse :=
  let log := p.beside logEnding
  match d.lookup log with
  | none | some (.file []) => ⟨d, .ok .unused⟩
  | some .folder => ⟨d, .error (if isBlank content then .unreadable else .cannotOpenBeside)⟩
  | some (.file bytes) =>
    if isBlank content then ⟨d.removeFile log, .ok .unused⟩
    else if l.unlocked || l.locking == .lockFile || l.locking == .absent then
      ⟨d, .error .cannotOpenBeside⟩
    else openIndex l bytes p d

/-- Settles what is beside a database of some content. -/
def settle (l : Location) (content : List UInt8) (p : Place) (d : Directory) : Attempt LogUse :=
  match lockFault l p d with
  | some why => ⟨d, .error why⟩
  | none => (settleJournal l content p d).andThen fun _ d => settleLog l content p d

/-- Whether no journal can be made. -/
def isJournalBlocked (p : Place) (d : Directory) : Bool :=
  let journal := p.beside journalEnding
  isTooLong journal || d.lookup journal == some .folder

/-- Removes the journal behind a change. -/
def removeJournal (p : Place) (d : Directory) : Directory := d.removeFile (p.beside journalEnding)

end Neighbours

/-- What is beside a database when it is closed. -/
def LogUse.close (use : LogUse) (p : Place) (d : Directory) : Directory :=
  match use with
  | .unused | .kept | .fixed => d
  | .consumed index =>
    let d := d.removeFile (p.beside Neighbours.logEnding)
    if index then d.removeFile (p.beside Neighbours.indexEnding) else d

end TransferLedger
