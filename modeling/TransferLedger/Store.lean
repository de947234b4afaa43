import TransferLedger.Event
import TransferLedger.Store.Location
/-!
# Stores of transfers

A store keeps the transfers that were committed to it, the first one of each name.

* `StoreError`: why a store refuses or fails, with the causes of each kind;
* `Store`: what a type needs to serve as a store;
* `Growth`: the rows of a store while a batch is added, with a count of what is new;
* `newerOrSame`: the order in which a store lists transfers.
-/

namespace TransferLedger

/-- Why a database cannot be opened, read or written. -/
inductive DatabaseFault
  /-- A stored row has a column of another type than the expected one. -/
  | columnType (kind : String) (index : Nat) (column : String)
  | location (why : Location.Fault)
  | cannotOpen (path : List Char)
  /-- A file beside the database's cannot be opened. -/
  | cannotOpenBeside
  | unreadable
  | locked
  /-- The log of changes cannot be followed. -/
  | lockProtocol
  | notADatabase
  | readOnly
  | reported (text : String)
  deriving DecidableEq, Repr

/-- Which constraint a record violates. -/
inductive Violation
  /-- The amount does not fit into the amount column. -/
  | amountRange (amount : Amount)
  /-- A number is larger than a stored integer. -/
  | integerRange (which : Ordinal) (value : UInt64)
  /-- The text in the amount column fails the column's check. -/
  | amountCheck
  /-- A column that must hold something holds nothing. -/
  | notNull (column : String)
  /-- The name is already taken. -/
  | duplicateKey
  | reported (text : String)
  deriving DecidableEq

/-- Why a stored row is no transfer. -/
inductive Corruption
  | hex (column : Transfer.Field) (why : Hex.Fault)
  | belowZero (column : Transfer.Field)
  | amount (why : Amount.Fault)
  | reported (text : String)
  deriving DecidableEq, Repr

/-- Why a store refuses or fails. -/
inductive StoreError
  | database (why : DatabaseFault)
  | constraintViolation (why : Violation)
  | corrupt (why : Corruption)
  | task (text : String)
  deriving DecidableEq

/-- The wording of a failure of the database. -/
def DatabaseFault.message : DatabaseFault → String
  | .columnType kind index column =>
    s!"Invalid column type {kind} at index: {index}, name: {column}"
  | .location why => why.message
  | .cannotOpen path => s!"unable to open database file: {String.ofList path}"
  | .cannotOpenBeside => "unable to open database file"
  | .unreadable => "disk I/O error"
  | .locked => "database is locked"
  | .lockProtocol => "locking protocol"
  | .notADatabase => "file is not a database"
  | .readOnly => "attempt to write a readonly database"
  | .reported text => text

/-- The check of the amount column: no minus sign in front, and no more characters than the column
has digits. -/
def amountCheckText : String :=
  s!"amount NOT GLOB '-*' AND length(amount) <= {Numeric.precision}"

/-- The wording of a violation. -/
def Violation.message : Violation → String
  | .amountRange amount =>
    s!"amount {String.ofList amount.toText} out of range for NUMERIC({Numeric.precision}, {Numeric.scale})"
  | .integerRange which value => s!"{which.field.name} {value.toNat} exceeds INTEGER"
  | .amountCheck => s!"CHECK constraint failed: {amountCheckText}"
  | .notNull column => s!"NOT NULL constraint failed: transfers.{column}"
  | .duplicateKey =>
    "UNIQUE constraint failed: transfers.tx_hash, transfers.log_index"
  | .reported text => text

/-- The wording of a corruption. -/
def Corruption.message : Corruption → String
  | .hex column why => s!"{column.name}: {why.message}"
  | .belowZero column => s!"{column.name}: number too small to fit in target type"
  | .amount why => s!"{Transfer.Field.amount.name}: {why.message}"
  | .reported text => text

/-- The wording of an error. -/
def StoreError.message : StoreError → String
  | .database why => s!"Database error: {why.message}"
  | .constraintViolation why => s!"Constraint violation: {why.message}"
  | .corrupt why => s!"Corrupt row: {why.message}"
  | .task text => s!"Storage task failed: {text}"

/-- A commit that has been tried: how many transfers were new or why it failed, the store
afterwards, how long it took and what it reported. -/
structure Commit (τ : Type) where
  result : Except StoreError Nat
  store : τ
  /-- How long it takes, in milliseconds. -/
  delay : Nat := 0
  events : List Event := []

/-- The rows of a store while a batch is added, with how many of the batch were new so far. -/
structure Growth (ρ : Type) where
  rows : List ρ
  inserted : Nat := 0

/-- A type that keeps transfers. -/
class Store (τ : Type) where
  /-- Adds the transfers of a batch whose names are new. A batch is added as a whole or, after an
  error, not at all. -/
  commit : List Transfer → τ → Commit τ
  /-- The newest transfers, up to a number of them. -/
  recent : Nat → τ → Except StoreError (List Transfer)
  /-- How many transfers are kept. -/
  count : τ → Nat

/-- Whether a transfer may stand before another in a listing: it has the larger block number or,
in the same block, no smaller log index. -/
def newerOrSame (a b : Transfer) : Bool :=
  b.blockNumber < a.blockNumber || (b.blockNumber == a.blockNumber && b.logIndex ≤ a.logIndex)

end TransferLedger
