import TransferLedger.Command
import TransferLedger.Database
import TransferLedger.Row.Json
import TransferLedger.Source.Lines
import TransferLedger.Source.Memory
import TransferLedger.Text.Cut
import TransferLedger.Worker
/-!
# The program

What the program does from its arguments on: it reads its settings, opens the database, and then
either commits the records of an input or shows the newest transfers. Arguments may also ask for a
notice, which is all that is shown then.

* `Surroundings`: what the program finds when it starts;
* `Report`: why it fails, as a message and the cause of it;
* `Outcome`: what it leaves behind;
* `Plan`: what it sets out to do;
* `Program.run`: the one from the other.
-/

namespace TransferLedger

/-- What the program finds when it starts. -/
structure Surroundings where
  args : List (List Char)
  environment : Environment := {}
  stdin : List UInt8 := []
  directory : Directory := {}
  /-- When the program is asked to stop, in milliseconds from the start of the worker's run. A signal
  that comes earlier ends the process from outside. -/
  stop : Option Nat := none

/-- A failure: what could not be done and, if it is not the same, why. -/
structure Report where
  message : String
  cause : Option String := none
  deriving DecidableEq, Repr

/-- The wording of a failure. The lines of the cause are indented. -/
def Report.text (r : Report) : String :=
  match r.cause with
  | none => r.message
  | some cause =>
    let lines := (Text.cut '\n' cause.toList).map fun line => "    " ++ String.ofList line
    r.message ++ "\n\nCaused by:\n" ++ "\n".intercalate lines

/-- What the program leaves behind. -/
structure Outcome where
  /-- The exit code: 0 after success, 1 after a failure, 2 for arguments that spell nothing. -/
  code : Nat
  /-- The lines that it shows. -/
  lines : List (List Char) := []
  report : Option Report := none
  directory : Directory
  events : List Event := []

/-- What a run of the program sets out to do. -/
structure Plan where
  command : Command
  config : Config
  /-- What was reported of the settings. -/
  events : List Event
  deriving DecidableEq

namespace Plan

/-- The plan that some arguments spell under an environment, or the notice that they ask for. -/
def make (args : List (List Char)) (environment : Environment) : Except Notice Plan :=
  (Invocation.parse args).map fun i =>
    let (settings, events) := Config.ofEnvironment environment
    { command := i.command, config := i.config settings, events }

/-- Whether the plan is to read the standard input. -/
def readsStdin (p : Plan) : Bool :=
  match p.command with
  | .run .. => p.config.fault.isNone && p.config.readsStdin
  | .list _ => false

/-- The places that matter to the plan: those of the database and on the way to it, and those on
the way to the input. -/
def places (home : Place) (p : Plan) : List Place :=
  Database.places home p.config.dbPath ++
    Place.along home (Text.Utf8.encode p.config.input)

end Plan

namespace Program

variable [FileFormat]

/-- The end of the program in failure. -/
def failure (report : Report) (directory : Directory) (events : List Event) : Outcome :=
  { code := 1, report := some report, directory, events }

/-- The end of the program with a notice. -/
def notice (n : Notice) (directory : Directory) : Outcome :=
  { code := n.code, lines := n.lines.map String.toList, directory }

/-- What the worker is subject to. To be asked to stop fires its trigger. -/
def conditions (stop : Option Nat) : Conditions where
  shutdown := stop.toList.map fun time => (time, .fire)

/-- What is reported while the worker runs. That the program was asked to stop is reported before
the worker heeds it. A commit to the database takes no time here, so no report of one comes
between. -/
def trace (events : List Event) : List Event :=
  events.flatMap fun e =>
    match e with
    | .stopping .exhausted => [e]
    | .stopping _ => [.stopReceived, e]
    | _ => [e]

/-- What a run of the worker amounts to, once the database is closed. To be stopped is no failure. -/
def ofRun {σ : Type} (run : Run σ Database) (d : Directory) : Outcome :=
  let directory := run.progress.store.close d
  match run.ending with
  | .failed error => failure ⟨error.message, some error.cause⟩ directory (trace run.events)
  | _ => { code := 0, directory, events := trace run.events ++ [.done run.progress.stats] }

/-- Commits the records of an input. An input that is a folder can be opened, and fails when it is
read. -/
def commit (config : Config) (stdin : List UInt8) (stop : Option Nat) (db : Database)
    (d : Directory) : Outcome :=
  let worker : Worker := { batchSize := config.batchSize, pollInterval := config.pollInterval }
  let conditions := conditions stop
  if config.readsStdin then ofRun (worker.run conditions (Lines.ofBytes stdin) db) d
  else
    match d.find (Text.Utf8.encode config.input) with
    | .error fault =>
      failure ⟨s!"Failed to open input {String.ofList config.input}", some fault.message⟩
        (db.close d) []
    | .ok (.file bytes) => ofRun (worker.run conditions (Lines.ofBytes bytes) db) d
    | .ok .folder =>
      let source : Script := ⟨[], .fails (.reported FileFault.isADirectory.message)⟩
      ofRun (worker.run conditions source db) d

/-- Shows the newest transfers, a line of JSON for each. -/
def list (limit : Nat) (db : Database) (d : Directory) : Outcome :=
  match Store.recent limit db with
  | .error error => failure ⟨error.message, none⟩ (db.close d) []
  | .ok transfers =>
    { code := 0, lines := transfers.map fun t => t.row.toJson, directory := db.close d }

/-- Carries out a command with an open database. -/
def perform (plan : Plan) (stdin : List UInt8) (stop : Option Nat) (db : Database)
    (d : Directory) : Outcome :=
  match plan.command with
  | .run .. => commit plan.config stdin stop db d
  | .list limit => list limit db d

/-- Opens the database of a plan and carries the plan out. -/
def runPlan (plan : Plan) (stdin : List UInt8) (stop : Option Nat) (d : Directory) : Outcome :=
  let path := plan.config.dbPath
  let opening := Database.openAt path d
  let outcome := match opening.result with
    | .error why =>
      failure ⟨s!"Failed to open store at {String.ofList path}",
        some (StoreError.database why).message⟩ opening.directory []
    | .ok db => perform plan stdin stop db opening.directory
  { outcome with events := plan.events ++ opening.events ++ outcome.events }

/-- Runs the program. Settings without sense fail it before the database is opened, and the
database is opened before the input. -/
def run (s : Surroundings) : Outcome :=
  match Plan.make s.args s.environment with
  | .error n => notice n s.directory
  | .ok plan =>
    match plan.config.fault with
    | some fault => failure ⟨fault.message, none⟩ s.directory plan.events
    | none => runPlan plan s.stdin s.stop s.directory

end Program

end TransferLedger
