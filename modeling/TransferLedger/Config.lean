import TransferLedger.Event
import TransferLedger.Text.Utf8
/-!
# Settings

* `Config`: the settings of the program, with their defaults;
* `Environment`: the variables that may change them, as bytes;
* `Config.ofEnvironment`: the settings under an environment, with a warning for each number that
  cannot be read;
* `Config.fault`: the first setting that makes no sense.

A variable that is not UTF-8 counts as unset.
-/

namespace TransferLedger

/-- The settings of the program. -/
structure Config where
  dbPath : List Char := "transfers.db".toList
  batchSize : Nat := 500
  /-- The wait behind a batch in milliseconds. -/
  pollInterval : Nat := 0
  /-- Where records are read from; a lone dash stands for the standard input. -/
  input : List Char := ['-']
  deriving DecidableEq

/-- The variables that may change the settings. -/
structure Environment where
  dbPath : Option (List UInt8) := none
  batchSize : Option (List UInt8) := none
  pollInterval : Option (List UInt8) := none
  input : Option (List UInt8) := none
  deriving DecidableEq

namespace Environment

/-- The text of a variable, if it has one. -/
def text? (value : Option (List UInt8)) : Option (List Char) :=
  value.bind fun bytes => (Text.Utf8.decode bytes).toOption

/-- The number in a variable, if it has one, with a warning if it has a text that is none. -/
def word? (key : String) (value : Option (List UInt8)) : Option Nat × List Event :=
  match text? value with
  | none => (none, [])
  | some s =>
    match Decimal.word? s with
    | some n => (some n, [])
    | none => (none, [.settingIgnored key s])

end Environment

namespace Config

/-- The settings under an environment. -/
def ofEnvironment (env : Environment) : Config × List Event :=
  let default : Config := {}
  let (batchSize, batchEvents) := Environment.word? "TI_BATCH_SIZE" env.batchSize
  let (pollInterval, pollEvents) := Environment.word? "TI_POLL_INTERVAL_MS" env.pollInterval
  ({ dbPath := (Environment.text? env.dbPath).getD default.dbPath
     batchSize := batchSize.getD default.batchSize
     pollInterval := pollInterval.getD default.pollInterval
     input := (Environment.text? env.input).getD default.input },
    batchEvents ++ pollEvents)

/-- Whether records are read from the standard input. -/
def readsStdin (c : Config) : Bool := c.input == ['-']

/-- Why settings make no sense. -/
inductive Fault
  | zeroBatchSize
  | emptyDbPath
  deriving DecidableEq, Repr

/-- The wording of a fault. -/
def Fault.message : Fault → String
  | .zeroBatchSize => "Batch size must be greater than zero (TI_BATCH_SIZE)"
  | .emptyDbPath => "Database path is empty (TI_DB_PATH)"

/-- The first setting that makes no sense. -/
def fault (c : Config) : Option Fault :=
  if c.batchSize = 0 then some .zeroBatchSize
  else if c.dbPath.isEmpty then some .emptyDbPath
  else none

end Config

end TransferLedger
