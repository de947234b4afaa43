import TransferLedger.Direction
import TransferLedger.Json.Scalar
import TransferLedger.Json.Skip
/-!
# Directions as JSON

A direction is written as its name. It is read from its name, or from an object that has the name
as its one member, with `null` for a value.
-/

namespace TransferLedger.Direction

open Json

/-- A direction as JSON. -/
def toJson (d : Direction) : List Char := quote d.name.toList

/-- The direction of a name that has been read. -/
def ofText (name : List Char) : Except Fault Direction :=
  match ofName? name with
  | some d => .ok d
  | none =>
    .error (.rejected (.unknownVariant name Direction.outgoing.name Direction.toSelf.name))

/-- The direction at the front of a text. -/
def read : Reader Direction := fun s =>
  let name (s : List Char) : Except Fault (Direction × List Char) :=
    match readText s with
    | .error f => .error f
    | .ok (name, r) =>
      match ofText name with
      | .ok d => .ok (d, r)
      | .error f => .error f
  match skipSpace s with
  | [] => .error .truncated
  | c :: r =>
    if c = '"' then name r
    else if c = '\x7b' then
      match skipSpace r with
      | [] => .error .truncated
      | q :: r =>
        if q = '"' then do
          let (d, r) ← name r
          let r ← readColon r
          let (_, r) ← unit r
          match skipSpace r with
          | [] => .error .truncated
          | e :: r => if e = '\x7d' then .ok (d, r) else .error .malformed
        else .error .malformed
    else .error .malformed

/-- The direction that a whole text holds. -/
def ofJson (s : List Char) : Except Fault Direction := decode read s

end TransferLedger.Direction
