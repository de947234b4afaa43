import TransferLedger.Event
/-!
# Screening

A batch is divided into the transfers that the store can hold and those that it cannot.

* `Guard`: a rule on amounts, with what it reports when it is applied;
* `Guard.numeric`: the rule of the amount column;
* `Guard.examine`: why a transfer is excluded, if it is;
* `Guard.screen`: the two parts of a batch, each in the order of the batch.
-/

namespace TransferLedger

/-- A rule on amounts. -/
structure Guard where
  /-- The number of digits that the rule admits, for messages. -/
  precision : Nat
  /-- Why an amount is rejected, if it is. -/
  verdict : Amount → Option Numeric.Rejection
  /-- What applying the rule to an amount reports. -/
  trace : Amount → List Event

/-- A transfer that is kept from the store, and why. -/
structure Excluded where
  transfer : Transfer
  reason : Exclusion
  deriving DecidableEq

/-- A batch after screening. -/
structure Screened where
  accepted : List Transfer
  excluded : List Excluded
  deriving DecidableEq

namespace Screened

/-- How many transfers the batch had. -/
def size (s : Screened) : Nat := s.accepted.length + s.excluded.length

/-- Whether the batch had none. -/
def isEmpty (s : Screened) : Bool := s.size == 0

end Screened

namespace Guard

/-- The rule of the amount column. A rejection is reported. -/
def numeric : Guard where
  precision := Numeric.precision
  verdict := Numeric.verdict
  trace a := (Numeric.verdict a).toList.map (Event.amountRejected a)

variable (guard : Guard)

/-- The first number of a transfer that is larger than a stored integer. -/
def oversized (t : Transfer) : Option Ordinal :=
  [Ordinal.blockNumber, .logIndex].find? fun which => storedMax < (which.value t).toNat

/-- Why a transfer is excluded, if it is. The amount is judged last. -/
def examine (t : Transfer) : Option Exclusion :=
  match oversized t with
  | some which => some (.integer which (which.value t))
  | none => (guard.verdict t.amount).map .amount

/-- What examining a transfer reports. The guard is asked only when both numbers are small
enough. -/
def examineTrace (t : Transfer) : List Event :=
  (if (oversized t).isNone then guard.trace t.amount else []) ++
    (guard.examine t).toList.map (Event.transferExcluded t)

/-- A batch divided into what the store can hold and what it cannot. -/
def screen (batch : List Transfer) : Screened where
  accepted := batch.filter fun t => (guard.examine t).isNone
  excluded := batch.filterMap fun t => (guard.examine t).map (Excluded.mk t)

/-- What screening a batch reports. -/
def screenTrace (batch : List Transfer) : List Event := batch.flatMap guard.examineTrace

end Guard

end TransferLedger
