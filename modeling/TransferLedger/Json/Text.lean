import TransferLedger.Json.Fault
/-!
# JSON strings

* `quote`: a string as JSON writes it, with the shortest escapes and only where they are needed;
* `readText`: the string whose opening quote has been read;
* `skipText`: the end of such a string, when its content does not matter.

A string that is read must pair its surrogate escapes; a skipped one need not.
-/

namespace TransferLedger.Json

/-- One character inside a written string. -/
def escape (c : Char) : List Char :=
  match c with
  | '"' => ['\\', '"']
  | '\\' => ['\\', '\\']
  | '\x08' => ['\\', 'b']
  | '\x0c' => ['\\', 'f']
  | '\n' => ['\\', 'n']
  | '\r' => ['\\', 'r']
  | '\t' => ['\\', 't']
  | c =>
    if c.toNat < 0x20 then
      ['\\', 'u', '0', '0', Nat.digitChar (c.toNat / 16), Nat.digitChar (c.toNat % 16)]
    else [c]

/-- A string as JSON writes it. -/
def quote (s : List Char) : List Char := '"' :: (s.flatMap escape ++ ['"'])

/-- The value of a hexadecimal digit in either case. -/
def hexDigit? (c : Char) : Option Nat :=
  if '0' ≤ c && c ≤ '9' then some (c.toNat - '0'.toNat)
  else if 'a' ≤ c && c ≤ 'f' then some (c.toNat - 'a'.toNat + 10)
  else if 'A' ≤ c && c ≤ 'F' then some (c.toNat - 'A'.toNat + 10)
  else none

/-- The number that four hexadecimal digits write. -/
def hexDigits? (a b c d : Char) : Option Nat := do
  let i ← hexDigit? a
  let j ← hexDigit? b
  let k ← hexDigit? c
  let l ← hexDigit? d
  return ((i * 16 + j) * 16 + k) * 16 + l

/-- The number that four hexadecimal digits at the front write. Fewer than four bytes are too
short a text; four bytes that are not all digits are a broken one. -/
def readUnit : Reader Nat
  | a :: b :: c :: d :: r =>
    match hexDigits? a b c d with
    | some n => .ok (n, r)
    | none => .error .malformed
  | s => .error (if s.foldl (fun n c => n + c.utf8Size) 0 < 4 then .truncated else .malformed)

/-- The character that a one-letter escape stands for. -/
def shortEscape? : Char → Option Char
  | '"' => some '"'
  | '\\' => some '\\'
  | '/' => some '/'
  | 'b' => some '\x08'
  | 'f' => some '\x0c'
  | 'n' => some '\n'
  | 'r' => some '\r'
  | 't' => some '\t'
  | _ => none

/-- A piece of a string: its closing quote, a character, or a number written as four digits. -/
inductive Piece
  | close
  | char (c : Char)
  | unit (n : Nat)
  deriving DecidableEq, Repr

/-- The piece at the front. -/
def readPiece : Reader Piece
  | [] => .error .truncated
  | c :: r =>
    if c = '"' then .ok (.close, r)
    else if c = '\\' then
      match r with
      | [] => .error .truncated
      | e :: r =>
        if e = 'u' then
          match readUnit r with
          | .ok (n, r) => .ok (.unit n, r)
          | .error f => .error f
        else
          match shortEscape? e with
          | some d => .ok (.char d, r)
          | none => .error .malformed
    else if c.toNat < 0x20 then .error .malformed
    else .ok (.char c, r)

/-- Whether a number is the first half of a surrogate pair. -/
def isLead (n : Nat) : Bool := 0xd800 ≤ n && n ≤ 0xdbff

/-- Whether a number is the second half of a surrogate pair. -/
def isTrail (n : Nat) : Bool := 0xdc00 ≤ n && n ≤ 0xdfff

/-- The character of a surrogate pair whose first half has been read. -/
def readTrail (lead : Nat) : Reader Char
  | [] => .error .truncated
  | c :: r =>
    if c = '\\' then
      match r with
      | [] => .error .truncated
      | e :: r =>
        if e = 'u' then
          match readUnit r with
          | .ok (n, r) =>
            if isTrail n then
              .ok (Char.ofNat ((lead - 0xd800) * 0x400 + (n - 0xdc00) + 0x10000), r)
            else .error .malformed
          | .error f => .error f
        else .error .malformed
    else .error .malformed

/-- The character at the front, or `none` at the closing quote. -/
def readChar (s : List Char) : Except Fault (Option Char × List Char) :=
  match readPiece s with
  | .error f => .error f
  | .ok (.close, r) => .ok (none, r)
  | .ok (.char c, r) => .ok (some c, r)
  | .ok (.unit n, r) =>
    if isTrail n then .error .malformed
    else if isLead n then
      match readTrail n r with
      | .ok (c, r) => .ok (some c, r)
      | .error f => .error f
    else .ok (some (Char.ofNat n), r)

/-- Reading with the characters so far in reverse. Each one takes a character of the text at
least, so as many turns as the text is long are enough. -/
def readTextFrom : Nat → List Char → Reader (List Char)
  | 0, _, _ => .error .truncated
  | turns + 1, done, s =>
    match readChar s with
    | .error f => .error f
    | .ok (none, r) => .ok (done.reverse, r)
    | .ok (some c, r) => readTextFrom turns (c :: done) r

/-- The string whose opening quote has been read. -/
def readText : Reader (List Char) := fun s => readTextFrom (s.length + 1) [] s

/-- Skipping for a number of turns. -/
def skipTextFrom : Nat → List Char → Except Fault (List Char)
  | 0, _ => .error .truncated
  | turns + 1, s =>
    match readPiece s with
    | .error f => .error f
    | .ok (.close, r) => .ok r
    | .ok (_, r) => skipTextFrom turns r

/-- What follows the string whose opening quote has been read. -/
def skipText (s : List Char) : Except Fault (List Char) := skipTextFrom (s.length + 1) s

end TransferLedger.Json
