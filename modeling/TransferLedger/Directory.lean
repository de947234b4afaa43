import TransferLedger.Place
import TransferLedger.Text.Utf8
/-!
# Files and directories

The part of a file system that the program sees.

* `Directory`: folders, and the content of files, by their places;
* `Directory.visit`: what stands at a place, every folder on the way being there;
* `Directory.find`: what stands at a path;
* `Directory.resolve`: the place of a path that is shortened before anything is opened.

Walking along a path, a folder that is left again must be there; shortening the path, it may be
missing.
-/

namespace TransferLedger

/-- What a place holds. -/
inductive Entry
  | folder
  | file (bytes : List UInt8)
  deriving DecidableEq

/-- Why a file is not opened or read. -/
inductive FileFault
  | notFound
  | notADirectory
  | isADirectory
  | nameTooLong
  deriving DecidableEq, Repr

/-- The wording of a fault. -/
def FileFault.message : FileFault → String
  | .notFound => "No such file or directory (os error 2)"
  | .notADirectory => "Not a directory (os error 20)"
  | .isADirectory => "Is a directory (os error 21)"
  | .nameTooLong => "File name too long (os error 36)"

/-- How many bytes a name may have. -/
def nameLimit : Nat := 255

/-- How many bytes a path may have that is walked along. -/
def walkLimit : Nat := 4095

/-- How many bytes a path may have while it is shortened. -/
def shortenLimit : Nat := 511

/-- How many bytes a shortened path may have, so that the names of the files beside it fit. -/
def shortLimit : Nat := 504

/-- Folders and files by their places. The working directory and the folders above it are always
there. -/
structure Directory where
  entries : List (Place × Entry) := []
  /-- The place of the working directory. -/
  home : Place := []
  deriving DecidableEq

namespace Directory

/-- What a place holds. -/
def lookup (d : Directory) (p : Place) : Option Entry :=
  if p.isPrefixOf d.home then some .folder
  else (d.entries.find? fun (q, _) => q == p).map Prod.snd

/-- Puts something at a place, instead of what it held. -/
def put (d : Directory) (p : Place) (e : Entry) : Directory :=
  { d with entries := (d.entries.filter fun (q, _) => q != p) ++ [(p, e)] }

/-- Removes a file. -/
def removeFile (d : Directory) (p : Place) : Directory :=
  { d with entries := d.entries.filter fun (q, e) => q != p || e == .folder }

/-- Adds a file and the folders above it. -/
def addFile (d : Directory) (path : List UInt8) (bytes : List UInt8) : Directory :=
  let p := Place.shorten d.home path
  let above := (List.range p.length).map fun n => p.take n
  let d := (above.filter fun q => (d.lookup q).isNone).foldl (fun d q => d.put q .folder) d
  d.put p (.file bytes)

/-- The order of texts in a listing, by code points. -/
def textsInOrder (s t : List Char) : Bool :=
  match s, t with
  | [], _ => true
  | _ :: _, [] => false
  | c :: s, d :: t => c.toNat < d.toNat || (c == d && textsInOrder s t)

/-- The names of what the working directory itself holds, as texts in order. -/
def names (d : Directory) : List (List Char) :=
  (d.entries.filterMap fun (p, _) =>
    match p.getLast? with
    | some name =>
      if p.dropLast == d.home then some (Text.Utf8.decodeLossy name) else none
    | none => none).mergeSort textsInOrder

/-- The place one name further, `p` being in reverse. What is left must be a folder. -/
def step (d : Directory) (p : Place) (name : Name) : Except FileFault Place :=
  match d.lookup p.reverse with
  | some .folder =>
    if nameLimit < name.length then .error .nameTooLong else .ok (Place.enter p name)
  | some (.file _) => .error .notADirectory
  | none => .error .notFound

/-- What stands at the end of some names behind a place, which is in reverse. -/
def walk (d : Directory) (p : Place) (names : List Name) : Except FileFault Entry := do
  let p ← names.foldlM d.step p
  match d.lookup p.reverse with
  | some e => return e
  | none => .error .notFound

/-- What stands at a place, every folder on the way being there. -/
def visit (d : Directory) (p : Place) : Except FileFault Entry := d.walk [] p

/-- What stands at a path, every folder on the way being there. -/
def find (d : Directory) (path : List UInt8) : Except FileFault Entry :=
  if path.isEmpty then .error .notFound
  else if walkLimit < path.length then .error .nameTooLong
  else d.walk (Place.start d.home path) (Place.cut path)

/-- Whether something stands at a path. -/
def isThere (d : Directory) (path : List UInt8) : Bool := (d.find path).toOption.isSome

/-- Whether a place can be looked at: it may be missing. -/
def isVisible (d : Directory) (p : Place) : Bool :=
  match d.visit p with
  | .ok _ | .error .notFound => true
  | .error _ => false

/-- The place of a path that is shortened name by name. What has been named so far may be missing,
and must not be out of reach otherwise. The topmost folder is not a place to open. -/
def resolve (d : Directory) (path : List UInt8) : Option Place :=
  let p := Place.shorten d.home path
  if (Place.along d.home path).all (fun q => d.isVisible q && q.pathLength ≤ shortenLimit) &&
    p.pathLength ≤ shortLimit && !p.isEmpty then some p
  else none

end Directory

end TransferLedger
