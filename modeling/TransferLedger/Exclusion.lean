import TransferLedger.Numeric
import TransferLedger.Transfer
/-!
# Reasons for exclusion

Why a transfer is kept from the store: one of its numbers is larger than a stored integer can be,
or its amount is outside the range of the amount column.

* `storedMax`: the largest stored integer;
* `Exclusion`: the reason, with its wording.
-/

namespace TransferLedger

/-- The largest integer that the store holds. -/
def storedMax : Nat := Nat.pow 2 63 - 1

/-- The two numbers of a transfer that are stored as integers. -/
inductive Ordinal
  | blockNumber
  | logIndex
  deriving DecidableEq, Repr

/-- The field of a number. -/
def Ordinal.field : Ordinal → Transfer.Field
  | .blockNumber => .blockNumber
  | .logIndex => .logIndex

/-- The value of a number in a transfer. -/
def Ordinal.value (t : Transfer) : Ordinal → UInt64
  | .blockNumber => t.blockNumber
  | .logIndex => t.logIndex

/-- Why a transfer is kept from the store. -/
inductive Exclusion
  | integer (which : Ordinal) (value : UInt64)
  | amount (why : Numeric.Rejection)
  deriving DecidableEq, Repr

/-- The wording of a reason. -/
def Exclusion.message : Exclusion → String
  | .integer which value =>
    s!"{which.field.name} {value.toNat} exceeds storage integer range"
  | .amount why => why.message

end TransferLedger
