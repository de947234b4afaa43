import TransferLedger.Bytes
import TransferLedger.Text.Quoted
/-!
# Hexadecimal text

Byte strings written with two digits a byte after `0x`.

* `encode`: the text of some bytes, in lower case;
* `decode`: a byte string of a given length from a text in either case, with or without `0x`
  (or `0X`) in front; otherwise the cause of the refusal.

The length is judged before the digits are, and both in bytes of the text, so that a character
outside ASCII counts as the bytes that encode it.
-/

namespace TransferLedger.Hex

/-- The two digits of a byte, the high one first. -/
def encodeByte (b : UInt8) : List Char :=
  [Nat.digitChar (b.toNat / 16), Nat.digitChar (b.toNat % 16)]

/-- The digits of some bytes, without the opening `0x`. -/
def digits (bs : List UInt8) : List Char := bs.flatMap encodeByte

/-- The text of some bytes. -/
def encode (bs : List UInt8) : List Char := '0' :: 'x' :: digits bs

/-- Why a text is no byte string of the wanted length. -/
inductive Fault
  | invalidLength (expected actual : Nat)
  | invalidDigit (found : UInt8) (position : Nat)
  deriving DecidableEq, Repr

/-- The wording of a refusal. A wrong byte is shown as the character of that number. -/
def Fault.message : Fault → String
  | .invalidLength expected actual =>
    s!"Invalid length: expected {expected} hex chars, got {actual}"
  | .invalidDigit found position =>
    s!"Invalid hex: Invalid character {Text.quoteChar (Char.ofNat found.toNat)} at position {position}"

/-- The value of a digit in either case, given as a byte of text. -/
def digitValue? (b : UInt8) : Option UInt8 :=
  if 0x30 ≤ b && b ≤ 0x39 then some (b - 0x30)
  else if 0x61 ≤ b && b ≤ 0x66 then some (b - 0x61 + 10)
  else if 0x41 ≤ b && b ≤ 0x46 then some (b - 0x41 + 10)
  else none

/-- The value of the digit at a position. -/
def digitAt (position : Nat) (b : UInt8) : Except Fault UInt8 :=
  match digitValue? b with
  | some v => .ok v
  | none => .error (.invalidDigit b position)

/-- The bytes that pairs of digits write, the first pair standing at a position. -/
def decodePairs (position : Nat) : List UInt8 → Except Fault (List UInt8)
  | high :: low :: r => do
    let h ← digitAt position high
    let l ← digitAt (position + 1) low
    let bs ← decodePairs (position + 2) r
    return (16 * h + l) :: bs
  | _ => .ok []

/-- A text without the `0x` or `0X` that may open it. -/
def body : List Char → List Char
  | '0' :: 'x' :: r => r
  | '0' :: 'X' :: r => r
  | r => r

/-- A byte string of length `n` from its text. -/
def decode (n : Nat) (s : List Char) : Except Fault (Bytes n) :=
  let text := (body s).flatMap String.utf8EncodeChar
  if text.length ≠ 2 * n then .error (.invalidLength (2 * n) text.length)
  else do
    let bs ← decodePairs 0 text
    if h : bs.length = n then return ⟨bs, h⟩
    else .error (.invalidLength (2 * n) (2 * bs.length))

end TransferLedger.Hex
