import TransferLedger.Program
/-!
# The command line

The outer layer of the program: it looks up what a run depends on, and carries out what the run
comes to. Files are looked up only at the places that matter to the run, and written only where
the run has changed them. Signals are not listened for, so here nothing asks a run to stop.
-/

namespace TransferLedger.CommandLine

/-- The variables that may change the settings. -/
def environment : IO Environment := do
  let bytes (name : String) : IO (Option (List UInt8)) := do
    return (← IO.getEnv name).map fun value => value.toUTF8.toList
  return {
    dbPath := ← bytes "TI_DB_PATH"
    batchSize := ← bytes "TI_BATCH_SIZE"
    pollInterval := ← bytes "TI_POLL_INTERVAL_MS"
    input := ← bytes "TI_INPUT" }

/-- The path of a place as a text. -/
def textOf (p : Place) : String := String.ofList (Text.Utf8.decodeLossy p.path)

/-- What stands at a place, if anything that can be read does. -/
def entryAt (p : Place) : IO (Option Entry) := do
  try
    let path ← IO.FS.realPath (textOf p)
    if ← path.isDir then return some .folder
    return some (.file (← IO.FS.readBinFile path).toList)
  catch _ => return none

/-- The place of the working directory. -/
def home : IO Place := do
  return Place.shorten [] (← IO.currentDir).toString.toUTF8.toList

/-- What stands at some places. -/
def directoryAt (home : Place) (places : List Place) : IO Directory := do
  let mut d : Directory := { home }
  for p in places.eraseDups do
    if let some e ← entryAt p then d := d.put p e
  return d

/-- Writes the files that a run has changed, and removes those that it has removed. -/
def writeChanges (before after : Directory) : IO Unit := do
  for (p, e) in before.entries do
    if e != .folder && (after.lookup p).isNone then IO.FS.removeFile (textOf p)
  for (p, e) in after.entries do
    if let .file bytes := e then
      if before.lookup p != some e then
        IO.FS.writeBinFile (textOf p) ⟨bytes.toArray⟩

/-- A report as a line of text. -/
def line (e : Event) : String :=
  e.fields.foldl (fun s (name, value) => s!"{s} {name}={value}") s!"{e.level.name} {e.message}"

/-- What a run with a plan depends on. -/
def surroundings (args : List (List Char)) (environment : Environment) (plan : Plan) :
    IO Surroundings := do
  let home ← home
  let stdin ← if plan.readsStdin then (← IO.getStdin).readBinToEnd else pure .empty
  return {
    args
    environment
    stdin := stdin.toList
    directory := ← directoryAt home (plan.places home) }

/-- Runs the program and gives its exit code. -/
def run (args : List String) : IO UInt32 := do
  let args := args.map String.toList
  let environment ← environment
  let s ← match Plan.make args environment with
    | .ok plan => surroundings args environment plan
    | .error n =>
      if n == .misuse then for l in Topic.program.lines do IO.eprintln l
      pure { args, environment }
  let outcome := Program.run s
  writeChanges s.directory outcome.directory
  for e in outcome.events do
    if e.level != .debug then IO.eprintln (line e)
  for l in outcome.lines do IO.println (String.ofList l)
  if let some report := outcome.report then IO.eprintln s!"Error: {report.text}"
  return outcome.code.toUInt32

end TransferLedger.CommandLine

/-- Runs the program. -/
def main (args : List String) : IO UInt32 := TransferLedger.CommandLine.run args
