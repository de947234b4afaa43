import TransferLedger.Exclusion
/-!
# Logged events

What the program reports while it works.

* `Stats`: the totals of a run;
* `StopReason`: why a run ends in order;
* `Event`: one report, with its level, its wording and its named values.
-/

namespace TransferLedger

/-- The totals of a run. -/
structure Stats where
  batches : Nat := 0
  received : Nat := 0
  committed : Nat := 0
  excluded : Nat := 0
  duplicates : Nat := 0
  deriving DecidableEq, Repr

/-- Why a run ends in order. -/
inductive StopReason
  /-- The source has no more records. -/
  | exhausted
  /-- Shutdown was requested before a batch was asked for. -/
  | beforeBatch
  /-- Shutdown was requested while a batch was waited for. -/
  | waiting
  /-- Shutdown was requested between two batches. -/
  | idle
  deriving DecidableEq, Repr

/-- The wording of the end of a run. -/
def StopReason.message : StopReason → String
  | .exhausted => "Transfer source exhausted"
  | .beforeBatch => "Shutdown requested, stopping before next batch"
  | .waiting => "Shutdown requested while waiting for records"
  | .idle => "Shutdown requested while idle"

/-- How much a report matters. -/
inductive Level
  | debug
  | info
  | warn
  deriving DecidableEq, Repr

/-- The written name of a level. -/
def Level.name : Level → String
  | .debug => "DEBUG"
  | .info => "INFO"
  | .warn => "WARN"

/-- A report. -/
inductive Event
  | amountRejected (amount : Amount) (why : Numeric.Rejection)
  | transferExcluded (transfer : Transfer) (why : Exclusion)
  | lineSkipped (line : Nat)
  | settingIgnored (key : String) (value : List Char)
  | storeOpened
  | batchCommitted (submitted inserted : Nat)
  | workerStarted (batchSize precision : Nat)
  | stopping (reason : StopReason)
  | batchIncomplete (batch excluded : Nat)
  | batchProcessed (batch accepted : Nat)
  | workerStopped (stats : Stats)
  | stopReceived
  | done (stats : Stats)
  deriving DecidableEq

namespace Event

/-- The level of a report. -/
def level : Event → Level
  | .amountRejected .. | .batchCommitted .. | .batchProcessed .. => .debug
  | .storeOpened | .workerStarted .. | .stopping .. | .workerStopped .. | .stopReceived | .done .. =>
    .info
  | .transferExcluded .. | .lineSkipped .. | .settingIgnored .. | .batchIncomplete .. => .warn

/-- The wording of a report. -/
def message : Event → String
  | .amountRejected .. => "Amount rejected by guard"
  | .transferExcluded .. => "Excluding transfer from commit"
  | .lineSkipped .. => "Skipping malformed transfer record"
  | .settingIgnored .. => "Ignoring unparseable environment value"
  | .storeOpened => "Opened transfer store"
  | .batchCommitted .. => "Committed transfer batch"
  | .workerStarted .. => "Commit worker started"
  | .stopping reason => reason.message
  | .batchIncomplete .. => "Batch committed without out-of-range transfers"
  | .batchProcessed .. => "Batch processed"
  | .workerStopped .. => "Commit worker stopped"
  | .stopReceived => "Stop signal received, finishing current batch"
  | .done .. => "Done"

/-- A number as the value of a field. -/
def number (n : Nat) : String := String.ofList (Decimal.ofNat n)

/-- The named values of a report. -/
def fields : Event → List (String × String)
  | .amountRejected amount why =>
    [("amount", String.ofList amount.toText), ("reason", why.message)]
  | .transferExcluded t why =>
    [("tx_hash", String.ofList t.shortHash), ("log_index", number t.logIndex.toNat),
      ("block_number", number t.blockNumber.toNat), ("amount", String.ofList t.amount.toText),
      ("reason", why.message)]
  | .lineSkipped line => [("line", number line)]
  | .settingIgnored key value => [("key", key), ("value", String.ofList value)]
  | .storeOpened => []
  | .batchCommitted submitted inserted =>
    [("submitted", number submitted), ("inserted", number inserted)]
  | .workerStarted batchSize precision =>
    [("batch_size", number batchSize), ("precision", number precision)]
  | .stopping _ => []
  | .batchIncomplete batch excluded => [("batch", number batch), ("excluded", number excluded)]
  | .batchProcessed batch accepted => [("batch", number batch), ("accepted", number accepted)]
  | .workerStopped s =>
    [("batches", number s.batches), ("received", number s.received),
      ("committed", number s.committed), ("excluded", number s.excluded),
      ("duplicates", number s.duplicates)]
  | .stopReceived => []
  | .done s =>
    [("committed", number s.committed), ("excluded", number s.excluded),
      ("duplicates", number s.duplicates)]

end Event

end TransferLedger
