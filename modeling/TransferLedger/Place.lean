import TransferLedger.Text.Cut
/-!
# Places

* `Name`: the name of a file or a folder;
* `Place`: where a path leads, as names from the topmost folder;
* `Place.shorten`: the place of a path, found without looking at what is there;
* `Place.along`: the places that a path leads through.

Names and paths are bytes. A path that does not begin with a slash starts in the working
directory. It may leave a folder again that it has entered.
-/

namespace TransferLedger

/-- The name of a file or a folder. -/
abbrev Name := List UInt8

/-- A place as names from the topmost folder, which is the empty place. -/
abbrev Place := List Name

namespace Place

/-- The byte between two names. -/
def slash : UInt8 := '/'.toUInt8

/-- The name of a folder in itself. -/
def same : Name := ['.'.toUInt8]

/-- The name that leads to the folder above. -/
def up : Name := ['.'.toUInt8, '.'.toUInt8]

/-- The names in a path; empty ones are between two slashes and at the ends. -/
def cut (path : List UInt8) : List Name := Text.cut slash path

/-- Where a path starts, in reverse, `home` being the working directory. -/
def start (home : Place) (path : List UInt8) : Place :=
  if path.head? = some slash then [] else home.reverse

/-- The place one name further, `p` being in reverse. Above the topmost folder there is only
itself. -/
def enter (p : Place) (name : Name) : Place :=
  if name.isEmpty || name == same then p
  else if name == up then p.tail
  else name :: p

/-- The place of a path, found without looking at what is there. -/
def shorten (home : Place) (path : List UInt8) : Place :=
  ((cut path).foldl enter (start home path)).reverse

/-- The places at the ends of the first names of a path, from one name on. -/
def along (home : Place) (path : List UInt8) : List Place :=
  let names := cut path
  (List.range names.length).map fun n =>
    ((names.take (n + 1)).foldl enter (start home path)).reverse

/-- The place of a file that has the name of another with an ending. -/
def beside (p : Place) (ending : List UInt8) : Place :=
  p.dropLast ++ [p.getLast?.getD [] ++ ending]

/-- How many bytes the path of a place has from the topmost folder. -/
def pathLength (p : Place) : Nat := (p.map fun name => name.length + 1).foldl (· + ·) 0

/-- The path of a place from the topmost folder. -/
def path (p : Place) : List UInt8 :=
  if p.isEmpty then [slash] else p.flatMap fun name => slash :: name

end Place

end TransferLedger
