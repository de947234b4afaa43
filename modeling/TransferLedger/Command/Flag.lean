import TransferLedger.Command.Manual
/-!
# Options on a command line

An option has a short and a long name. One with a value takes the next argument for it, or the
rest of its own, with or without an equals sign (`-l 5`, `-l5`, `-l=5`, `--limit 5`, `--limit=5`).
The next argument is no value when it looks like an option, which a lone dash does not. An option
without a value asks for a notice. Behind `--` there may be nothing more.

* `Flag`: an option and what it means for what has been given so far;
* `Flag.once`: the meaning of an option that may be given once;
* `Flag.scan`: what the options in front of the first word give.

Arguments are read from left to right, and the first that asks for a notice, or that is refused,
decides. A value in an argument of its own is looked at late: when the next option comes, or in
the end.
-/

namespace TransferLedger

/-- What an option means, `α` being what options give. -/
inductive Meaning (α : Type)
  /-- Its value changes what has been given so far, or is refused. -/
  | value (apply : List Char → α → Option α)
  /-- It asks for a notice. -/
  | notice (n : Notice)

/-- An option. -/
structure Flag (α : Type) where
  short : Char
  long : String
  meaning : Meaning α

namespace Flag

variable {α : Type}

/-- A value that may be given once: what is read in it, if something is and nothing was given
before. -/
def once {β : Type} (read : List Char → Option β) (value : List Char) :
    Option β → Option (Option β)
  | none => (read value).map some
  | some _ => none

/-- Whether an argument looks like an option. -/
def looksLikeOption : List Char → Bool
  | '-' :: _ :: _ => true
  | _ => false

/-- What an argument asks for when it is an option: a notice, or a change by a value that the
argument itself may have. -/
inductive Ask (α : Type)
  | notice (n : Notice)
  | change (apply : List Char → α → Option α) (value : Option (List Char))

/-- What an option asks for under its long name, with what follows the equals sign, if there is
one. A notice takes no value. -/
def askLong (f : Flag α) (value : Option (List Char)) : Option (Ask α) :=
  match f.meaning, value with
  | .value apply, value => some (.change apply value)
  | .notice n, none => some (.notice n)
  | .notice _, some _ => none

/-- What an option asks for under its short name, with the rest of the argument. -/
def askShort (f : Flag α) (rest : List Char) : Ask α :=
  match f.meaning, rest with
  | .notice n, _ => .notice n
  | .value apply, [] => .change apply none
  | .value apply, '=' :: value => .change apply (some value)
  | .value apply, value => .change apply (some value)

/-- What an argument asks for that looks like an option. -/
def ask (known : List (Flag α)) (arg : List Char) : Option (Ask α) :=
  match arg with
  | '-' :: '-' :: body =>
    let name := body.takeWhile (· != '=')
    let value := match body.dropWhile (· != '=') with
      | _ :: value => some value
      | [] => none
    (known.find? fun f => f.long.toList == name).bind fun f => f.askLong value
  | '-' :: c :: rest => (known.find? fun f => f.short == c).map fun f => f.askShort rest
  | _ => none

/-- What is known when the options have been read. -/
structure Scan (α : Type) where
  /-- What the options give; nothing when the last value is refused. -/
  given : Option α
  /-- The first word and the arguments behind it. -/
  rest : Option (List Char × List (List Char)) := none

/-- What the options in front of the first word give, after what was given before. -/
def scan (known : List (Flag α)) (given : Option α) : List (List Char) → Except Notice (Scan α)
  | [] => .ok { given }
  | arg :: args =>
    if arg == ['-', '-'] then if args.isEmpty then .ok { given } else .error .misuse
    else if looksLikeOption arg then
      match ask known arg, given with
      | none, _ | _, none => .error .misuse
      | some (.notice n), some _ => .error n
      | some (.change apply (some value)), some a =>
        match apply value a with
        | none => .error .misuse
        | some a => scan known (some a) args
      | some (.change apply none), some a =>
        match args with
        | [] => .error .misuse
        | value :: args =>
          if looksLikeOption value then .error .misuse else scan known (apply value a) args
    else .ok { given, rest := some (arg, args) }

/-- What some arguments give that are options throughout. -/
def readAll (known : List (Flag α)) (start : α) (args : List (List Char)) : Except Notice α :=
  match scan known (some start) args with
  | .ok { given := some a, rest := none } => .ok a
  | .ok _ => .error .misuse
  | .error n => .error n

end Flag

end TransferLedger
