/-!
# What the program says of itself

* `Topic`: what there is to be explained;
* `Topic.lines`: the explanation;
* `Notice`: what arguments come to when there is nothing to be done for them.
-/

namespace TransferLedger

/-- What there is to be explained: the program, or one of its commands. -/
inductive Topic
  | program
  | run
  | list
  | help
  deriving DecidableEq, Repr

/-- What arguments come to when there is nothing to be done for them. -/
inductive Notice
  /-- They spell nothing. -/
  | misuse
  /-- They ask for the version of the program. -/
  | version
  /-- They ask for an explanation. -/
  | help (topic : Topic)
  deriving DecidableEq, Repr

namespace Topic

/-- The topic of a command's name. -/
def ofName? (s : List Char) : Option Topic :=
  ([("run", .run), ("list", .list), ("help", .help)].find?
    fun (name, _) => name.toList == s).map Prod.snd

/-- The explanation of a topic, line by line. -/
def lines : Topic → List String
  | .program =>
    ["Screens and commits token-transfer events",
      "",
      "Usage: commit-worker [OPTIONS] <COMMAND>",
      "",
      "Commands:",
      "  run   Commit records from a JSON-lines input",
      "  list  Print recent transfers with their direction tag",
      "  help  Print this message or the help of the given subcommand(s)",
      "",
      "Options:",
      "  -d, --db-path <DB_PATH>  SQLite database path (overrides TI_DB_PATH)",
      "  -h, --help               Print help",
      "  -V, --version            Print version"]
  | .run =>
    ["Commit records from a JSON-lines input",
      "",
      "Usage: commit-worker run [OPTIONS]",
      "",
      "Options:",
      "  -i, --input <INPUT>            Input file, or \"-\" for stdin (overrides TI_INPUT)",
      "  -b, --batch-size <BATCH_SIZE>  Records per commit (overrides TI_BATCH_SIZE)",
      "  -h, --help                     Print help"]
  | .list =>
    ["Print recent transfers with their direction tag",
      "",
      "Usage: commit-worker list [OPTIONS]",
      "",
      "Options:",
      "  -l, --limit <LIMIT>  Number of rows [default: 20]",
      "  -h, --help           Print help"]
  | .help =>
    ["Print this message or the help of the given subcommand(s)",
      "",
      "Usage: commit-worker help [COMMAND]...",
      "",
      "Arguments:",
      "  [COMMAND]...  Print help for the subcommand(s)"]

end Topic

namespace Notice

/-- The name of the program and the number of its version. -/
def versionLine : String := "commit-worker 0.1.0"

/-- The lines that a notice consists of. -/
def lines : Notice → List String
  | .misuse => []
  | .version => [versionLine]
  | .help topic => topic.lines

/-- The exit code after a notice. -/
def code : Notice → Nat
  | .misuse => 2
  | .version | .help _ => 0

end Notice

end TransferLedger
