import TransferLedger.Json.Number
import TransferLedger.Json.Text
/-!
# Values that are passed over

A reader that meets a member it does not know passes over the value. The value has to be well
formed, to any depth; the brackets that are open are kept on a stack.

* `readColon`: the colon between a name and its value;
* `skipValue`: what follows the value at the front.
-/

namespace TransferLedger.Json

/-- The text behind the colon that parts a name from its value. -/
def readColon (s : List Char) : Except Fault (List Char) :=
  match skipSpace s with
  | [] => .error .truncated
  | c :: r => if c = ':' then .ok r else .error .malformed

/-- The text behind a member's name and colon. -/
def skipName (s : List Char) : Except Fault (List Char) :=
  match skipSpace s with
  | [] => .error .truncated
  | c :: r =>
    if c = '"' then
      match skipText r with
      | .ok r => readColon r
      | .error f => .error f
    else .error .malformed

/-- The text behind a value without parts, whose first character is given. -/
def skipScalar (c : Char) (r : List Char) : Except Fault (List Char) :=
  if c = 'n' then readWord ['u', 'l', 'l'] r
  else if c = 't' then readWord ['r', 'u', 'e'] r
  else if c = 'f' then readWord ['a', 'l', 's', 'e'] r
  else if c = '"' then skipText r
  else if c = '-' ∨ c.isDigit then skipNumber (c :: r)
  else .error .malformed

/-- A bracket that is open: a list's or an object's. -/
inductive Bracket
  | list
  | object
  deriving DecidableEq, Repr

/-- The character that closes a bracket. -/
def Bracket.closer : Bracket → Char
  | .list => ']'
  | .object => '}'

/-- What the text has to go on with: a value, or what may stand behind one. -/
inductive Stage
  | value
  | behind
  deriving DecidableEq, Repr

/-- One turn inside the open brackets, the innermost first: the stage and the brackets after it,
with the text that is left. -/
def skipTurn (stage : Stage) (stack : List Bracket) (s : List Char) :
    Except Fault (Stage × List Bracket × List Char) :=
  match skipSpace s with
  | [] => .error .truncated
  | c :: r =>
    match stage, stack with
    | .value, stack =>
      if c = '[' then
        match skipSpace r with
        | [] => .error .truncated
        | d :: t =>
          if d = ']' then .ok (.behind, stack, t) else .ok (.value, .list :: stack, d :: t)
      else if c = '\x7b' then
        match skipSpace r with
        | [] => .error .truncated
        | d :: t =>
          if d = '\x7d' then .ok (.behind, stack, t)
          else
            match skipName (d :: t) with
            | .ok t => .ok (.value, .object :: stack, t)
            | .error f => .error f
      else
        match skipScalar c r with
        | .ok t => .ok (.behind, stack, t)
        | .error f => .error f
    | .behind, [] => .error .malformed
    | .behind, top :: below =>
      if c = top.closer then .ok (.behind, below, r)
      else if c = ',' then
        match top with
        | .list => .ok (.value, .list :: below, r)
        | .object =>
          match skipName r with
          | .ok t => .ok (.value, .object :: below, t)
          | .error f => .error f
      else .error .malformed

/-- Skipping for a number of turns, until a value ends with no bracket open. -/
def skipFrom : Nat → Stage → List Bracket → List Char → Except Fault (List Char)
  | _, .behind, [], s => .ok s
  | 0, _, _, _ => .error .truncated
  | turns + 1, stage, stack, s =>
    match skipTurn stage stack s with
    | .ok (stage, stack, s) => skipFrom turns stage stack s
    | .error f => .error f

/-- The text behind the value at the front. Each turn takes a character at least, so as many
turns as the text is long are enough. -/
def skipValue (s : List Char) : Except Fault (List Char) := skipFrom (s.length + 1) .value [] s

end TransferLedger.Json
