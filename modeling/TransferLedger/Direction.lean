import TransferLedger.Transfer
/-!
# The direction of a transfer

A transfer goes out, unless its sender is also its receiver.

* `Direction`, with its written name;
* `Direction.between`: the direction between two parties, which is to oneself when both are the
  same account;
* `Transfer.direction`: the direction of a transfer.
-/

namespace TransferLedger

/-- Whether a transfer leaves its sender. -/
inductive Direction
  | outgoing
  | toSelf
  deriving DecidableEq, Repr

/-- The written name of a direction. -/
def Direction.name : Direction → String
  | .outgoing => "out"
  | .toSelf => "self"

/-- The direction of a given name. -/
def Direction.ofName? (s : List Char) : Option Direction :=
  [Direction.outgoing, .toSelf].find? fun d => d.name.toList == s

/-- The direction between a sender and a receiver, who may be absent. -/
def Direction.between (sender : Address) (receiver : Option Address) : Direction :=
  if receiver = some sender then .toSelf else .outgoing

theorem Direction.between_eq_toSelf_iff {sender : Address} {receiver : Option Address} :
    between sender receiver = .toSelf ↔ receiver = some sender := by
  unfold between
  split <;> simp [*]

/-- The direction of a transfer. -/
def Transfer.direction (t : Transfer) : Direction := Direction.between t.sender t.receiver

end TransferLedger
