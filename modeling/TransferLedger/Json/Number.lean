import TransferLedger.Decimal
import TransferLedger.Json.Fault
/-!
# JSON numbers

* `Number`: what a numeral denotes for the purposes of a reader;
* `readNumber`: the number at the front of a text;
* `skipNumber`: the end of a numeral, when its value does not matter.

A numeral with a fraction or an exponent, a negative zero, and an integer outside 64 bits are all
floating. A floating numeral has to be finite in double precision: `Magnitude.isFinite` decides
that from the first digits and the power of ten, in exact arithmetic.
-/

namespace TransferLedger.Json

/-- What a numeral denotes. -/
inductive Number
  | natural (n : Nat)
  | negative (n : Nat)
  | floating
  deriving DecidableEq, Repr

/-- What a number is when it stands in the wrong place. -/
def Number.found : Number → Found
  | .natural n => .integer n
  | .negative n => .integer (-n)
  | .floating => .floating

/-- A significand below `2 ^ 64` and a power of ten. `full` says that an integer digit no longer
fitted into the significand. -/
structure Magnitude where
  significand : Nat := 0
  exponent : Int := 0
  full : Bool := false
  deriving DecidableEq, Repr

namespace Magnitude

/-- One more digit before the point: into the significand while it fits, and from the first digit
that does not, into the exponent. -/
def pushInteger (m : Magnitude) (c : Char) : Magnitude :=
  if m.full || Decimal.wordBound ≤ Decimal.push m.significand c then
    ⟨m.significand, m.exponent + 1, true⟩
  else ⟨Decimal.push m.significand c, m.exponent, false⟩

/-- The digits behind the point: into the significand up to the first that does not fit. -/
def pushFraction : Magnitude → List Char → Magnitude
  | m, [] => m
  | m, c :: r =>
    if Decimal.wordBound ≤ Decimal.push m.significand c then m
    else pushFraction ⟨Decimal.push m.significand c, m.exponent - 1, m.full⟩ r

/-- A natural number rounded to 53 binary digits, a tie to the even neighbour. -/
def roundToDouble (n : Nat) : Nat :=
  if n < Nat.pow 2 53 then n
  else
    let unit := Nat.pow 2 (n.log2 - 52)
    let quotient := n / unit
    let twice := 2 * (n % unit)
    let up := unit < twice || (twice == unit && quotient % 2 == 1)
    (if up then quotient + 1 else quotient) * unit

/-- The least number that rounds to no finite double: half a unit above the largest of them. -/
def doubleBound : Nat := Nat.pow 2 1024 - Nat.pow 2 970

/-- Whether the double nearest to the product of the significand and the power of ten, each
rounded by itself, is finite. -/
def isFinite (m : Magnitude) : Bool :=
  m.significand == 0 || m.exponent < 0 ||
    (m.exponent ≤ 308 &&
      roundToDouble m.significand * roundToDouble (Nat.pow 10 m.exponent.toNat) < doubleBound)

end Magnitude

/-- Digits at the front, of which there must be one. -/
def readDigits : Reader (List Char) := fun s =>
  match s.takeWhile Char.isDigit, s.dropWhile Char.isDigit with
  | [], [] => .error .truncated
  | [], _ :: _ => .error .malformed
  | c :: ds, r => .ok (c :: ds, r)

/-- The digits before the point: one zero, or digits that open with no zero. -/
def readInteger : Reader (List Char) := fun s => do
  let (ds, r) ← readDigits s
  if ds.head? = some '0' ∧ ds ≠ ['0'] then .error .malformed else return (ds, r)

/-- The digits behind the point, if there is one. -/
def readFraction : Reader (Option (List Char))
  | '.' :: r => do
    let (ds, r) ← readDigits r
    return (some ds, r)
  | s => .ok (none, s)

/-- A sign in front, true for a minus. -/
def splitSign : List Char → Bool × List Char
  | '-' :: r => (true, r)
  | '+' :: r => (false, r)
  | r => (false, r)

/-- The exponent, if there is one. -/
def readExponent (s : List Char) : Except Fault (Option Int × List Char) :=
  match s with
  | [] => .ok (none, [])
  | c :: r =>
    if c = 'e' ∨ c = 'E' then do
      let (negative, r) := splitSign r
      let (ds, r) ← readDigits r
      let n : Int := Decimal.value ds
      return (some (if negative then -n else n), r)
    else .ok (none, c :: r)

/-- The number that the parts of a numeral denote, when it is finite. -/
def numberOf (negative : Bool) (integer : List Char) (fraction : Option (List Char))
    (exponent : Option Int) : Except Fault Number :=
  let whole := integer.foldl Magnitude.pushInteger {}
  let m := whole.pushFraction (fraction.getD [])
  let m := { m with exponent := m.exponent + exponent.getD 0 }
  if !m.isFinite then .error .malformed
  else if fraction.isSome || exponent.isSome || whole.full then .ok .floating
  else if !negative then .ok (.natural whole.significand)
  else if whole.significand == 0 || Nat.pow 2 63 < whole.significand then .ok .floating
  else .ok (.negative whole.significand)

/-- The number at the front of a text that opens with a minus sign or a digit. -/
def readNumber : Reader Number := fun s => do
  let (negative, r) := match s with
    | '-' :: r => (true, r)
    | r => (false, r)
  let (integer, r) ← readInteger r
  let (fraction, r) ← readFraction r
  let (exponent, r) ← readExponent r
  let number ← numberOf negative integer fraction exponent
  return (number, r)

/-- The end of a numeral. A numeral that breaks off is broken, even at the end of the text, and
its size does not matter. -/
def skipNumber (s : List Char) : Except Fault (List Char) :=
  let parts : Except Fault (List Char) := do
    let (_, r) := match s with
      | '-' :: r => (true, r)
      | r => (false, r)
    let (_, r) ← readInteger r
    let (_, r) ← readFraction r
    let (_, r) ← readExponent r
    return r
  match parts with
  | .ok r => .ok r
  | .error _ => .error .malformed

end TransferLedger.Json
