import TransferLedger.Text.Quoted
/-!
# Faults of a JSON text

Why a text is not read. Reading goes through the text once, so the first fault in it is the one
reported.

* `Found`: what stood in a place where something else belongs;
* `Mismatch`: a value that JSON allows and the reader does not;
* `Fault`: broken notation, a text that ends inside a value, or a mismatch;
* `Reader`: a value from the front of a text, with what follows it.
-/

namespace TransferLedger.Json

/-- What stood in a place where something else belongs. -/
inductive Found
  | null
  | boolean (b : Bool)
  | integer (v : Int)
  | floating
  | text (s : List Char)
  | sequence
  | map
  deriving DecidableEq, Repr

/-- The wording for what was found. -/
def Found.message : Found → String
  | .null => "null"
  | .boolean true => "boolean `true`"
  | .boolean false => "boolean `false`"
  | .integer v => s!"integer `{v}`"
  | .floating => "floating point"
  | .text s => s!"string {Text.quote s}"
  | .sequence => "sequence"
  | .map => "map"

/-- A value that JSON allows and the reader does not. -/
inductive Mismatch
  /-- A value of another kind than the expected one. -/
  | invalidType (found : Found) (expected : String)
  /-- A value of the right kind and outside the expected range. -/
  | invalidValue (found : Found) (expected : String)
  /-- A list with too few elements. -/
  | invalidLength (length : Nat) (expected : String)
  /-- An object without a member that it must have. -/
  | missingField (name : String)
  /-- An object with a member twice. -/
  | duplicateField (name : String)
  /-- A word that is none of the two alternatives. -/
  | unknownVariant (found : List Char) (first second : String)
  /-- A string whose own rule refuses it, in the words of that rule. -/
  | refused (reason : String)
  deriving DecidableEq, Repr

/-- The wording of a mismatch. -/
def Mismatch.message : Mismatch → String
  | .invalidType found expected => s!"invalid type: {found.message}, expected {expected}"
  | .invalidValue found expected => s!"invalid value: {found.message}, expected {expected}"
  | .invalidLength length expected => s!"invalid length {length}, expected {expected}"
  | .missingField name => s!"missing field `{name}`"
  | .duplicateField name => s!"duplicate field `{name}`"
  | .unknownVariant found first second =>
    s!"unknown variant `{String.ofList found}`, expected `{first}` or `{second}`"
  | .refused reason => reason

/-- Why a text is not read. -/
inductive Fault
  /-- The notation is broken. -/
  | malformed
  /-- The text ends inside a value. -/
  | truncated
  /-- A value does not fit its place. -/
  | rejected (why : Mismatch)
  deriving DecidableEq, Repr

/-- A value from the front of a text, with what follows it. -/
abbrev Reader (α : Type) := List Char → Except Fault (α × List Char)

/-- Whether a character is white space between the parts of a text. -/
def isSpace (c : Char) : Bool := c == ' ' || c == '\t' || c == '\n' || c == '\r'

/-- A text without the white space in front. -/
def skipSpace (s : List Char) : List Char := s.dropWhile isSpace

/-- The rest of a text that opens with a given word. -/
def readWord : List Char → List Char → Except Fault (List Char)
  | [], s => .ok s
  | _ :: _, [] => .error .truncated
  | c :: w, d :: s => if c = d then readWord w s else .error .malformed

end TransferLedger.Json
