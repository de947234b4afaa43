import TransferLedger.Amount
/-!
# The range of the amount column

The amount column holds integers of up to 78 digits that are not negative, which covers every
unsigned word of 256 bits.

* `Quantity`: what the range check looks at, the sign and the number of digits;
* `Native`: an integer in one of the fixed widths that producers hand over;
* `verdict`: why a quantity is outside the range, if it is.

A wide word is measured in groups of 19 digits, the most that fit into 64 bits.
-/

namespace TransferLedger.Numeric

/-- How many digits the column holds. -/
def precision : Nat := 78

/-- How many of them stand behind the point. -/
def scale : Nat := 0

/-- What has a sign and a number of decimal digits. -/
class Quantity (α : Type) where
  isNegative : α → Bool
  digitCount : α → Nat

export Quantity (isNegative digitCount)

instance : Quantity Amount where
  isNegative := Amount.negative
  digitCount := Amount.digitCount

/-- How many decimal digits a number has. -/
def countDigits (n : Nat) : Nat := if n < 10 then 1 else countDigits (n / 10) + 1

/-- How many digits a group has. -/
def groupDigits : Nat := 19

/-- The least number that is longer than a group. -/
def group : Nat := Nat.pow 10 groupDigits

/-- A number without its lower groups, and how many digits they have. -/
def splitGroups (rest digits : Nat) : Nat × Nat :=
  if h : group ≤ rest then
    have : rest / group < rest := Nat.div_lt_self (Nat.lt_of_lt_of_le (by decide) h) (by decide)
    splitGroups (rest / group) (digits + groupDigits)
  else (rest, digits)
  termination_by rest

/-- How many digits a wide word has: those of its lower groups, and those of the low 64 bits of
what is left. -/
def countWide (n : Nat) : Nat :=
  let (rest, digits) := splitGroups n 0
  digits + countDigits (rest % Decimal.wordBound)

/-- An integer of a fixed width. -/
inductive Native
  | uint64 (v : BitVec 64)
  | uint128 (v : BitVec 128)
  | int64 (v : BitVec 64)
  | int128 (v : BitVec 128)
  | uint256 (v : BitVec 256)
  | uint512 (v : BitVec 512)

namespace Native

/-- The integer of a word, signed words in two's complement. -/
def toInt : Native → Int
  | .uint64 v => v.toNat
  | .uint128 v => v.toNat
  | .int64 v => v.toInt
  | .int128 v => v.toInt
  | .uint256 v => v.toNat
  | .uint512 v => v.toNat

/-- The amount of the same integer. -/
def toAmount (v : Native) : Amount := Amount.ofInt v.toInt

instance : Quantity Native where
  isNegative
    | .int64 v => v.msb
    | .int128 v => v.msb
    | _ => false
  digitCount
    | .uint64 v => countDigits v.toNat
    | .uint128 v => countDigits v.toNat
    | .int64 v => countDigits v.toInt.natAbs
    | .int128 v => countDigits v.toInt.natAbs
    | .uint256 v => countWide v.toNat
    | .uint512 v => countWide v.toNat

end Native

/-- Why a quantity is outside the range of the column. -/
inductive Rejection
  | negative
  | precisionExceeded (digits max : Nat)
  deriving DecidableEq, Repr

/-- The wording of a rejection. -/
def Rejection.message : Rejection → String
  | .negative => "Negative amount"
  | .precisionExceeded digits max => s!"Precision exceeded: {digits} digits > {max}"

/-- Why a quantity is outside the range, if it is. The sign is judged first. -/
def verdict {α : Type} [Quantity α] (a : α) : Option Rejection :=
  if isNegative a then some .negative
  else if precision < digitCount a then some (.precisionExceeded (digitCount a) precision)
  else none

/-- Whether a quantity is within the range. -/
def isSupported {α : Type} [Quantity α] (a : α) : Bool := (verdict a).isNone

end TransferLedger.Numeric
