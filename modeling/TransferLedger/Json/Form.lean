import TransferLedger.Json.Scalar
import TransferLedger.Json.Skip
/-!
# Forms

A form has a fixed set of named fields. It is read from an object, whose members come in any
order and may include unknown ones, or from a list of the fields in their own order.

* `Form`: the fields, how each is read into a draft, and how a draft becomes the result;
* `Form.read`: the reader of a form;
* `object`: an object as it is written, from names and values.
-/

namespace TransferLedger.Json

/-- The fields `F` of a form, which are gathered in a draft `D` and make up an `α`. -/
structure Form (F D α : Type) where
  /-- What the form is called in messages. -/
  title : String
  /-- The fields in their own order. -/
  fields : List F
  name : F → String
  /-- Whether an object may do without the field. -/
  omittable : F → Bool
  /-- Whether a list may end before the field. -/
  trailing : F → Bool
  /-- The draft with no field filled. -/
  blank : D
  filled : D → F → Bool
  /-- Reads a value into a field. -/
  fill : D → F → Reader D
  /-- The result, when no required field is missing. -/
  finish : D → Option α

namespace Form

variable {F D α : Type} (form : Form F D α)

/-- The field of a given name. -/
def named (name : List Char) : Option F :=
  form.fields.find? fun f => (form.name f).toList == name

/-- What a draft amounts to, or the first field that is missing in it. -/
def close (d : D) : Except Fault α :=
  match form.finish d with
  | some a => .ok a
  | none =>
    match form.fields.find? fun f => !form.omittable f && !form.filled d f with
    | some f => .error (.rejected (.missingField (form.name f)))
    | none => .error .malformed

/-- The rest of an object at the name of its next member, or behind its closing brace. -/
def nextName (first : Bool) : Reader (Option (List Char)) := fun s =>
  let name (s : List Char) : Except Fault (Option (List Char) × List Char) :=
    match s with
    | [] => .error .truncated
    | c :: r =>
      if c = '"' then
        match readText r with
        | .ok (name, r) => .ok (some name, r)
        | .error f => .error f
      else .error .malformed
  match skipSpace s with
  | [] => .error .truncated
  | c :: r =>
    if c = '\x7d' then .ok (none, r)
    else if first then name (c :: r)
    else if c = ',' then name (skipSpace r)
    else .error .malformed

/-- Reads the members of an object for a number of turns. A known name may occur once; the value
of an unknown one is passed over. -/
def readMembers : Nat → Bool → D → Reader D
  | 0, _, _, _ => .error .truncated
  | turns + 1, first, d, s =>
    match nextName first s with
    | .error f => .error f
    | .ok (none, r) => .ok (d, r)
    | .ok (some name, r) =>
      match form.named name with
      | some f =>
        if form.filled d f then .error (.rejected (.duplicateField (form.name f)))
        else
          match readColon r with
          | .error f => .error f
          | .ok r =>
            match form.fill d f r with
            | .error f => .error f
            | .ok (d, r) => readMembers turns false d r
      | none =>
        match readColon r with
        | .error f => .error f
        | .ok r =>
          match skipValue r with
          | .error f => .error f
          | .ok r => readMembers turns false d r

/-- The rest of a list at its next element, or `none` at its closing bracket. -/
def nextElement (first : Bool) (s : List Char) : Except Fault (Option (List Char)) :=
  match skipSpace s with
  | [] => .error .truncated
  | c :: r =>
    if c = ']' then .ok none
    else if first then .ok (some (c :: r))
    else if c = ',' then
      match skipSpace r with
      | [] => .error .truncated
      | d :: t => if d = ']' then .error .malformed else .ok (some (d :: t))
    else .error .malformed

/-- The rest of a text behind the bracket that closes a list. -/
def closeList (s : List Char) : Except Fault (List Char) :=
  match skipSpace s with
  | [] => .error .truncated
  | c :: r => if c = ']' then .ok r else .error .malformed

/-- Reads the elements of a list into the fields that are left, the first of them with its
index. -/
def readElements : List F → Nat → D → Reader D
  | [], _, d, s =>
    match closeList s with
    | .ok r => .ok (d, r)
    | .error f => .error f
  | f :: fs, i, d, s =>
    match nextElement (i == 0) s with
    | .error e => .error e
    | .ok (some r) =>
      match form.fill d f r with
      | .ok (d, r) => readElements fs (i + 1) d r
      | .error e => .error e
    | .ok none =>
      if form.trailing f then readElements fs (i + 1) d s
      else
        .error (.rejected (.invalidLength i s!"{form.title} with {form.fields.length} elements"))

/-- The reader of a form. -/
def read : Reader α := fun s =>
  let close (gathered : Except Fault (D × List Char)) : Except Fault (α × List Char) :=
    match gathered with
    | .error f => .error f
    | .ok (d, r) =>
      match form.close d with
      | .ok a => .ok (a, r)
      | .error f => .error f
  match skipSpace s with
  | [] => .error .truncated
  | c :: r =>
    if c = '\x7b' then close (form.readMembers (r.length + 1) true form.blank r)
    else if c = '[' then close (form.readElements form.fields 0 form.blank r)
    else .error (mismatch form.title c r)

end Form

/-- The members of an object as they are written, each a name and the text of its value. -/
def members : List (String × List Char) → List Char
  | [] => []
  | [(name, value)] => quote name.toList ++ ':' :: value
  | (name, value) :: ms => quote name.toList ++ ':' :: value ++ ',' :: members ms

/-- An object as it is written. -/
def object (ms : List (String × List Char)) : List Char := '\x7b' :: members ms ++ ['\x7d']

/-- An optional value as it is written. -/
def optionalText {α : Type} (text : α → List Char) : Option α → List Char
  | none => ['n', 'u', 'l', 'l']
  | some a => text a

end TransferLedger.Json
