import TransferLedger.Decimal
import TransferLedger.Text.Quoted
/-!
# Amounts

A transferred amount is an integer of any size, kept as a sign and canonical digits, so that two
amounts are equal exactly when their integers are.

* `Amount`: sign and digits, with the two rules that make the writing unique;
* `toInt`: the integer that an amount denotes;
* `ofDigits`, `ofInt`, `zero`: amounts from digits and from numbers;
* `parse`: an amount from a signed numeral, or the cause of the refusal;
* `toText`: the canonical numeral;
* `uint256?`: the amount as a word of 256 bits, where it fits.
-/

namespace TransferLedger

/-- An integer in canonical decimal form. Zero has no sign. -/
structure Amount where
  negative : Bool
  digits : List Char
  canonical : Decimal.IsCanonical digits
  unsigned_zero : digits = ['0'] → negative = false
  deriving DecidableEq

namespace Amount

/-- The absolute value. -/
def magnitude (a : Amount) : Nat := Decimal.value a.digits

/-- The integer that an amount denotes. -/
def toInt (a : Amount) : Int := if a.negative then -(a.magnitude : Int) else a.magnitude

/-- How many digits the absolute value has. -/
def digitCount (a : Amount) : Nat := a.digits.length

def isZero (a : Amount) : Bool := a.digits == ['0']

/-- A sign before canonical digits; before zero the sign is dropped. -/
def ofCanonical (negative : Bool) (ds : List Char) (h : Decimal.IsCanonical ds) : Amount where
  negative := negative && ds != ['0']
  digits := ds
  canonical := h
  unsigned_zero := by simp_all

/-- A sign before any digits. -/
def ofDigits (negative : Bool) (ds : List Char) (h : ∀ c ∈ ds, c.isDigit = true) : Amount :=
  ofCanonical negative (Decimal.canonical ds) (Decimal.isCanonical_canonical h)

/-- The amount that denotes a given integer. -/
def ofInt (v : Int) : Amount :=
  ofCanonical (v < 0) (Decimal.ofNat v.natAbs) (Decimal.isCanonical_ofNat _)

def zero : Amount := ofInt 0

instance : Inhabited Amount := ⟨zero⟩

/-- The canonical numeral of an amount. -/
def toText (a : Amount) : List Char := if a.negative then '-' :: a.digits else a.digits

/-- Why a text is no amount: it has no digits, or some character is not one. Positions count
bytes from the start of the text. -/
inductive Fault
  | empty
  | invalidDigit (position : Nat) (found : Char)
  deriving DecidableEq, Repr

/-- The wording of a refusal. -/
def Fault.message : Fault → String
  | .empty => "Empty amount"
  | .invalidDigit position found => s!"Invalid digit {Text.quoteChar found} at position {position}"

/-- The sign that opens a numeral, with what follows it. -/
def splitSign : List Char → Option Char × List Char
  | '-' :: r => (some '-', r)
  | '+' :: r => (some '+', r)
  | r => (none, r)

/-- When nothing is left behind the digits in front, there is nothing else. -/
theorem isDigit_of_dropWhile {s : List Char} (h : s.dropWhile Char.isDigit = []) :
    ∀ c ∈ s, c.isDigit = true := by
  have hs : s.takeWhile Char.isDigit = s := by
    simpa [h] using List.takeWhile_append_dropWhile (p := Char.isDigit) (l := s)
  exact List.all_eq_true.1 (hs ▸ List.all_takeWhile)

/-- An amount from an optional sign and one or more digits. Every character before the first
non-digit takes one byte, so the count of them is its position. -/
def parse (s : List Char) : Except Fault Amount :=
  let (sign, body) := splitSign s
  if body.isEmpty then .error .empty
  else
    match h : body.dropWhile Char.isDigit with
    | [] => .ok (ofDigits (sign == some '-') body (isDigit_of_dropWhile h))
    | c :: _ =>
      .error (.invalidDigit (sign.toList.length + (body.takeWhile Char.isDigit).length) c)

/-- The amount as a word of 256 bits, when it is neither negative nor too large. -/
def uint256? (a : Amount) : Option (BitVec 256) :=
  if a.negative then none
  else if a.magnitude < Nat.pow 2 256 then some (BitVec.ofNat 256 a.magnitude) else none

end Amount

end TransferLedger
