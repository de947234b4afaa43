import TransferLedger.Command.Flag
import TransferLedger.Config
/-!
# Command lines

* `Command`: the two things that the program does;
* `Invocation`: a command with the options in front of it;
* `Invocation.parse`: the invocation that some arguments spell, or the notice that they ask for;
* `Invocation.config`: the settings of an invocation.
-/

namespace TransferLedger

/-- What the program does. -/
inductive Command
  /-- Reads records and commits them. -/
  | run (input : Option (List Char)) (batchSize : Option Nat)
  /-- Shows the newest transfers. -/
  | list (limit : Nat)
  deriving DecidableEq, Repr

/-- A command with the options in front of it. -/
structure Invocation where
  dbPath : Option (List Char)
  command : Command
  deriving DecidableEq, Repr

namespace Invocation

/-- The option that asks for an explanation. -/
def helpFlag {α : Type} (topic : Topic) : Flag α := ⟨'h', "help", .notice (.help topic)⟩

/-- The options in front of the command. The path to the database is not empty. -/
def outerFlags : List (Flag (Option (List Char))) :=
  [⟨'d', "db-path", .value (Flag.once fun path => if path.isEmpty then none else some path)⟩,
    ⟨'V', "version", .notice .version⟩,
    helpFlag .program]

/-- What the options of the command give that reads records. -/
structure RunOptions where
  input : Option (List Char) := none
  batchSize : Option Nat := none
  deriving DecidableEq, Repr

/-- The options of the command that reads records. -/
def runFlags : List (Flag RunOptions) :=
  [⟨'i', "input", .value fun value o =>
      (Flag.once some value o.input).map fun input => { o with input }⟩,
    ⟨'b', "batch-size", .value fun value o =>
      (Flag.once Decimal.word? value o.batchSize).map fun batchSize => { o with batchSize }⟩,
    helpFlag .run]

/-- How many transfers a listing shows by default. -/
def defaultLimit : Nat := 20

/-- The options of the command that shows transfers. -/
def listFlags : List (Flag (Option Nat)) :=
  [⟨'l', "limit", .value (Flag.once Decimal.word?)⟩, helpFlag .list]

/-- The explanation that the arguments behind the word for it ask for. -/
def helpOn (args : List (List Char)) : Notice :=
  match args with
  | [] => .help .program
  | [name] => ((Topic.ofName? name).map Notice.help).getD .misuse
  | _ => .misuse

/-- The command that a word and the arguments behind it spell. -/
def commandOf (name : List Char) (args : List (List Char)) : Except Notice Command :=
  match Topic.ofName? name with
  | some .run => (Flag.readAll runFlags {} args).map fun o => .run o.input o.batchSize
  | some .list => (Flag.readAll listFlags none args).map fun limit => .list (limit.getD defaultLimit)
  | some .help => .error (helpOn args)
  | _ => .error .misuse

/-- The invocation that some arguments spell, or the notice that they ask for. -/
def parse (args : List (List Char)) : Except Notice Invocation := do
  let outer ← Flag.scan outerFlags (some none) args
  match outer.rest with
  | none => throw .misuse
  | some (name, args) =>
    let command ← commandOf name args
    match outer.given with
    | none => throw .misuse
    | some dbPath => return { dbPath, command }

/-- The settings of an invocation: an option counts before a variable, and a variable before the
default. -/
def config (i : Invocation) (settings : Config) : Config :=
  let settings := { settings with dbPath := i.dbPath.getD settings.dbPath }
  match i.command with
  | .run input batchSize =>
    { settings with
      input := input.getD settings.input
      batchSize := batchSize.getD settings.batchSize }
  | .list _ => settings

end Invocation

end TransferLedger
