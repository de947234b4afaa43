import TransferLedger.Store
/-!
# A store in memory

* `MemoryStore`: transfers in the order in which they were added, and a failure that the next
  commit is to have, if one is armed;
* `MemoryStore.insert`: adds one transfer and counts it, unless its name is taken.
-/

namespace TransferLedger

/-- Transfers in the order in which they were added. -/
structure MemoryStore where
  rows : List Transfer := []
  /-- The failure of the next commit. -/
  armed : Option StoreError := none
  deriving DecidableEq

namespace MemoryStore

/-- Whether the amount column has no place for a transfer's amount. -/
def isOutside (t : Transfer) : Bool :=
  t.amount.negative || Numeric.precision < t.amount.digitCount

/-- Adds a transfer and counts it, unless its name is taken. -/
def insert (g : Growth Transfer) (t : Transfer) : Growth Transfer :=
  if g.rows.any fun r => r.key == t.key then g else ⟨g.rows ++ [t], g.inserted + 1⟩

/-- Adds the transfers of a batch. An armed failure comes first and is used up; then the first
amount without a place fails the batch. -/
def commit (batch : List Transfer) (s : MemoryStore) : Commit MemoryStore :=
  match s.armed with
  | some error => { result := .error error, store := { s with armed := none } }
  | none =>
    match batch.find? isOutside with
    | some t => { result := .error (.constraintViolation (.amountRange t.amount)), store := s }
    | none =>
      let grown := batch.foldl insert { rows := s.rows }
      { result := .ok grown.inserted, store := { s with rows := grown.rows } }

/-- The newest transfers; those of one block and log index in the order in which they were
added. -/
def recent (limit : Nat) (s : MemoryStore) : List Transfer :=
  (s.rows.mergeSort newerOrSame).take limit

instance : Store MemoryStore where
  commit := commit
  recent limit s := .ok (recent limit s)
  count s := s.rows.length

/-- Arms a failure for the next commit. -/
def failNext (error : StoreError) (s : MemoryStore) : MemoryStore := { s with armed := some error }

end MemoryStore

end TransferLedger
