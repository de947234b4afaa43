import TransferLedger.Json.Text
import TransferLedger.Decimal
import TransferLedger.Text.Cut
import TransferLedger.Text.Utf8
/-!
# Where a database is

A database is named by a path, or by `file:` with a path and options, as in `file:a.db?mode=ro`.
The name `:memory:` and the empty path stand for a database of one's own.

* `Access`: what may be done with a database;
* `Locking`: how those who use a database file at the same time heed each other;
* `Location`: a path, with the options behind it;
* `Location.parse`: the location that a name spells, or why it spells none.

Behind `file:` a percent sign and two hexadecimal digits stand for a byte. The byte zero ends the
part that it stands in. A number sign ends the whole.
-/

namespace TransferLedger

/-- What may be done with a database. -/
inductive Access
  | readOnly
  | readWrite
  /-- Reading and writing, and making the file when it is missing. -/
  | create
  /-- Reading and writing in memory. -/
  | memory
  deriving DecidableEq, Repr

namespace Access

/-- The access of a given name. -/
def ofName? (s : List Char) : Option Access :=
  ([("ro", .readOnly), ("rw", .readWrite), ("rwc", .create), ("memory", .memory)].find?
    fun (name, _) => name.toList == s).map Prod.snd

/-- How much an access to a file permits. -/
def rank : Access → Nat
  | .readOnly => 1
  | .readWrite => 2
  | .create => 3
  | .memory => 4

/-- Whether an access may be narrowed to another. Memory may always be asked for. -/
def admits (a b : Access) : Bool := b == .memory || b.rank ≤ a.rank

end Access

/-- How those who use a database file at the same time heed each other. -/
inductive Locking
  /-- By locks on the file, each for as long as it is needed. -/
  | shared
  /-- By locks on the file, the first of which is kept. -/
  | exclusive
  /-- By a lock file beside it. -/
  | lockFile
  /-- Not at all. -/
  | absent
  deriving DecidableEq, Repr

/-- Where a database is, and how it is to be opened. -/
structure Location where
  path : List UInt8
  access : Access := .create
  /-- Whether the file is taken not to change, and so only read. -/
  immutable : Bool := false
  /-- Whether nobody else is taken to use the file. -/
  unlocked : Bool := false
  locking : Locking := .shared
  /-- Whether the index of the log of changes is only read. -/
  fixedIndex : Bool := false
  /-- Whether the database is kept in memory although it has a path. -/
  detached : Bool := false
  /-- A file that lends its permissions to the database's, and so has to be there. -/
  model : Option (List UInt8) := none
  deriving DecidableEq, Repr

namespace Location

/-- Why a name spells no location. -/
inductive Fault
  | authority (host : List Char)
  | accessMode (mode : List Char)
  | cacheMode (mode : List Char)
  /-- The access asked for permits more than the one given before. -/
  | wider (mode : List Char)
  | fileSystem (name : List Char)
  deriving DecidableEq, Repr

/-- The wording of a fault. -/
def Fault.message : Fault → String
  | .authority host => s!"invalid uri authority: {String.ofList host}"
  | .accessMode mode => s!"no such access mode: {String.ofList mode}"
  | .cacheMode mode => s!"no such cache mode: {String.ofList mode}"
  | .wider mode => s!"access mode not allowed: {String.ofList mode}"
  | .fileSystem name => s!"no such vfs: {String.ofList name}"

/-- The bytes of a part, up to the byte zero. -/
def unescape : List Char → List UInt8
  | '%' :: a :: b :: r =>
    match Json.hexDigit? a, Json.hexDigit? b with
    | some high, some low =>
      if 16 * high + low = 0 then [] else UInt8.ofNat (16 * high + low) :: unescape r
    | _, _ => '%'.toUInt8 :: unescape (a :: b :: r)
  | c :: r => String.utf8EncodeChar c ++ unescape r
  | [] => []

/-- A text before the first occurrence of a character, and behind it. -/
def splitAt (sep : Char) (s : List Char) : List Char × List Char :=
  (s.takeWhile (· != sep), (s.dropWhile (· != sep)).tail)

/-- An option behind a path. -/
structure Setting where
  name : List UInt8
  bytes : List UInt8

namespace Setting

/-- The value of an option as a text. -/
def text (o : Setting) : List Char := Text.Utf8.decodeLossy o.bytes

/-- Whether an option has a given name. -/
def isNamed (name : String) (o : Setting) : Bool := o.name == Text.Utf8.encode name.toList

/-- The number at the front of a text: in hexadecimal digits behind `0x`, and in decimal digits
otherwise. A number of more than 31 bits counts as zero. -/
def leadingNumber (s : List Char) : Nat :=
  let decimal := Decimal.value (s.takeWhile Char.isDigit)
  let n := match s with
    | '0' :: x :: r =>
      let digits := (r.map Json.hexDigit?).takeWhile Option.isSome
      if (x == 'x' || x == 'X') && !digits.isEmpty then
        (digits.filterMap id).foldl (fun n k => 16 * n + k) 0
      else decimal
    | _ => decimal
  if n < Nat.pow 2 31 then n else 0

/-- Whether a value says yes: with a word, or with a number of which the low eight bits are not
all zero. -/
def isYes (o : Setting) : Bool :=
  if o.text.head?.any Char.isDigit then leadingNumber o.text % 256 != 0
  else ["on", "yes", "true"].any fun word => word.toList == o.text.map Char.toLower

end Setting

/-- The options in a text. One without a name does not count. -/
def settings (query : List Char) : List Setting :=
  ((Text.cut '&' query).map fun part =>
    let (name, value) := splitAt '=' part
    { name := unescape name, bytes := unescape value : Setting }).filter fun o => !o.name.isEmpty

/-- What follows the authority, which may be missing, empty or the own host. -/
def skipAuthority (s : List Char) : Except Fault (List Char) :=
  match s with
  | '/' :: '/' :: r =>
    let host := r.takeWhile (· != '/')
    if host.isEmpty || host == "localhost".toList then .ok (r.dropWhile (· != '/'))
    else .error (.authority host)
  | s => .ok s

/-- Narrows the access by one option, if it is about access. An option about the cache has to have
one of two values and changes nothing. -/
def narrow (access : Access) (o : Setting) : Except Fault Access :=
  if o.isNamed "mode" then
    match Access.ofName? o.text with
    | none => .error (.accessMode o.text)
    | some wanted => if access.admits wanted then .ok wanted else .error (.wider o.text)
  else if o.isNamed "cache" then
    if o.text == "shared".toList || o.text == "private".toList then .ok access
    else .error (.cacheMode o.text)
  else .ok access

/-- The file systems that a database can be in, each with how its files are locked; one has none
and is in memory. -/
def fileSystems : List (String × Option Locking) :=
  [("unix", some .shared), ("unix-none", some .absent), ("unix-dotfile", some .lockFile),
    ("unix-excl", some .exclusive), ("memdb", none)]

/-- How files are locked in the file system asked for. Of several the last one counts. -/
def lockingOf (settings : List Setting) : Except Fault (Option Locking) :=
  match settings.reverse.find? (Setting.isNamed "vfs") with
  | none => .ok (some .shared)
  | some o =>
    match fileSystems.find? fun (name, _) => name.toList == o.text with
    | some (_, locking) => .ok locking
    | none => .error (.fileSystem o.text)

/-- The location that a name spells. Of options given several times the first one counts, unless
they are about access or the file system. -/
def parse (name : List Char) : Except Fault Location :=
  match name with
  | 'f' :: 'i' :: 'l' :: 'e' :: ':' :: r => do
    let r ← skipAuthority r
    let (path, query) := splitAt '?' (r.takeWhile (· != '#'))
    let settings := settings query
    let access ← settings.foldlM narrow .create
    let locking ← lockingOf settings
    let saysYes (name : String) : Bool := (settings.find? (Setting.isNamed name)).any Setting.isYes
    return {
      path := unescape path
      access
      immutable := saysYes "immutable"
      unlocked := saysYes "nolock"
      locking := locking.getD .absent
      fixedIndex := saysYes "readonly_shm"
      detached := locking.isNone
      model := (settings.find? (Setting.isNamed "modeof")).map Setting.bytes }
  | path => .ok { path := Text.Utf8.encode path }

/-- The path that stands for a database in memory. -/
def memoryPath : List UInt8 := Text.Utf8.encode ":memory:".toList

/-- Whether the database has no file by its path or its access. -/
def isUnfiled (l : Location) : Bool :=
  l.path.isEmpty || l.path == memoryPath || l.access == .memory

/-- Whether the database is one's own and gone when it is closed. -/
def isPrivate (l : Location) : Bool := l.isUnfiled || l.detached

/-- How many bytes a path may have in the file system in memory. -/
def detachedLimit : Nat := 1016

/-- Whether a private database has a path that is too long for its file system. -/
def isTooLong (l : Location) : Bool := !l.isUnfiled && detachedLimit < l.path.length

/-- Whether the database may not be written. A private one has no file that could be taken not to
change, unless it has a path in a file system of its own. -/
def isReadOnly (l : Location) : Bool :=
  l.access == .readOnly || (l.immutable && !l.isUnfiled)

end Location

end TransferLedger
