import TransferLedger.Json.Number
import TransferLedger.Json.Text
/-!
# Single values

Readers for the values that a field may hold.

* `mismatch`: the fault of a value that stands where another kind belongs;
* `string`: a string;
* `word`: a natural number below `2 ^ 64`;
* `optional`: `null`, or what another reader reads;
* `unit`: `null`;
* `mapping`, `refusing`: a reader followed by a function, or by a rule of its own;
* `decode`: a whole text that holds one value.
-/

namespace TransferLedger.Json

/-- The fault of a value where another kind belongs. Words, numbers and strings are read to their
end first, and a fault in them counts instead. -/
def mismatch (expected : String) (c : Char) (r : List Char) : Fault :=
  let rejected (found : Found) : Fault := .rejected (.invalidType found expected)
  let after {α : Type} (read : Except Fault α) (found : α → Found) : Fault :=
    match read with
    | .ok a => rejected (found a)
    | .error f => f
  if c = 'n' then after (readWord ['u', 'l', 'l'] r) fun _ => .null
  else if c = 't' then after (readWord ['r', 'u', 'e'] r) fun _ => .boolean true
  else if c = 'f' then after (readWord ['a', 'l', 's', 'e'] r) fun _ => .boolean false
  else if c = '-' ∨ c.isDigit then after (readNumber (c :: r)) fun (n, _) => n.found
  else if c = '"' then after (readText r) fun (s, _) => .text s
  else if c = '[' then rejected .sequence
  else if c = '\x7b' then rejected .map
  else .malformed

/-- A string. -/
def string : Reader (List Char) := fun s =>
  match skipSpace s with
  | [] => .error .truncated
  | c :: r => if c = '"' then readText r else .error (mismatch "a string" c r)

/-- A natural number below `2 ^ 64`. -/
def word : Reader UInt64 := fun s =>
  match skipSpace s with
  | [] => .error .truncated
  | c :: r =>
    if c = '-' ∨ c.isDigit then
      match readNumber (c :: r) with
      | .ok (.natural n, r) => .ok (UInt64.ofNat n, r)
      | .ok (.negative n, _) =>
        .error (.rejected (.invalidValue (Number.negative n).found "u64"))
      | .ok (.floating, _) => .error (.rejected (.invalidType .floating "u64"))
      | .error f => .error f
    else .error (mismatch "u64" c r)

/-- Nothing for `null`, and otherwise what a reader reads. -/
def optional {α : Type} (read : Reader α) : Reader (Option α) := fun s =>
  match skipSpace s with
  | 'n' :: r =>
    match readWord ['u', 'l', 'l'] r with
    | .ok r => .ok (none, r)
    | .error f => .error f
  | s =>
    match read s with
    | .ok (a, r) => .ok (some a, r)
    | .error f => .error f

/-- The value `null`. -/
def unit : Reader Unit := fun s =>
  match skipSpace s with
  | [] => .error .truncated
  | c :: r =>
    if c = 'n' then
      match readWord ['u', 'l', 'l'] r with
      | .ok r => .ok ((), r)
      | .error f => .error f
    else .error (mismatch "unit" c r)

/-- A reader whose value is put through a function. -/
def mapping {α β : Type} (f : α → β) (read : Reader α) : Reader β := fun s =>
  match read s with
  | .ok (a, r) => .ok (f a, r)
  | .error e => .error e

/-- A reader followed by a rule of its own, which may refuse what was read. -/
def refusing {α β ε : Type} (message : ε → String) (rule : α → Except ε β) (read : Reader α) :
    Reader β := fun s =>
  match read s with
  | .error f => .error f
  | .ok (a, r) =>
    match rule a with
    | .ok b => .ok (b, r)
    | .error e => .error (.rejected (.refused (message e)))

/-- The value of a whole text: behind it only white space may stand. -/
def decode {α : Type} (read : Reader α) (s : List Char) : Except Fault α :=
  match read s with
  | .error f => .error f
  | .ok (a, r) => if (skipSpace r).isEmpty then .ok a else .error .malformed

end TransferLedger.Json
