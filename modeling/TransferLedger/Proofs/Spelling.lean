import Mathlib.Tactic
import TransferLedger.Proofs.OptionScan
import TransferLedger.Proofs.Settings

/-!
# The command lines that spell an invocation

The option of the program stands in front of the command, those of the command behind it. Each may
be given once.

* `Invocation.SetsPath`, `Invocation.SetsOptions`, `Invocation.SetsLimit`: the arguments that give
  the options;
* `Invocation.IsSpelledBy`, `Invocation.parse_eq_ok_iff`: the command lines that spell an
  invocation;
* `Invocation.GivesTexts`, `Invocation.parse_of_unusable`: the command lines that give options any
  texts, and what becomes of those that are of no use.
-/

namespace TransferLedger

namespace Invocation

open TransferLedger.Flag

/-! ### Command lines -/

theorem isKnown_outerFlags : ∀ f ∈ outerFlags, IsKnown outerFlags f := by
  simp only [outerFlags, List.forall_mem_cons]
  refine ⟨?_, ?_, ?_, by simp⟩ <;> exact ⟨rfl, rfl, by decide, rfl, by decide⟩

theorem isKnown_runFlags : ∀ f ∈ runFlags, IsKnown runFlags f := by
  simp only [runFlags, List.forall_mem_cons]
  refine ⟨?_, ?_, ?_, by simp⟩ <;> exact ⟨rfl, rfl, by decide, rfl, by decide⟩

theorem isKnown_listFlags : ∀ f ∈ listFlags, IsKnown listFlags f := by
  simp only [listFlags, List.forall_mem_cons]
  refine ⟨?_, ?_, by simp⟩ <;> exact ⟨rfl, rfl, by decide, rfl, by decide⟩

/-- Some arguments give the path to the database, which is not empty. -/
abbrev SetsPath : Option (List Char) → List (List Char) → Option (List Char) → Prop :=
  Sets 'd' "db-path" fun text path => path ≠ [] ∧ text = path

/-- Some arguments give the input. -/
abbrev SetsInput : Option (List Char) → List (List Char) → Option (List Char) → Prop :=
  Sets 'i' "input" Eq

/-- Some arguments give the size of a batch. -/
abbrev SetsSize : Option ℕ → List (List Char) → Option ℕ → Prop :=
  Sets 'b' "batch-size" Decimal.WritesWord

/-- Some arguments give the length of a listing. -/
abbrev SetsLimit : Option ℕ → List (List Char) → Option ℕ → Prop :=
  Sets 'l' "limit" Decimal.WritesWord

/-- Arguments of two kinds, in either order. -/
inductive EitherOrder (A B : List (List Char) → Prop) : List (List Char) → Prop
  | straight {a b : List (List Char)} (left : A a) (right : B b) : EitherOrder A B (a ++ b)
  | swapped {a b : List (List Char)} (left : A a) (right : B b) : EitherOrder A B (b ++ a)

theorem EitherOrder.mono {A B A' B' : List (List Char) → Prop} (hA : ∀ args, A args → A' args)
    (hB : ∀ args, B args → B' args) {args : List (List Char)} (h : EitherOrder A B args) :
    EitherOrder A' B' args := by
  cases h with
  | straight left right => exact .straight (hA _ left) (hB _ right)
  | swapped left right => exact .swapped (hA _ left) (hB _ right)

theorem EitherOrder.swap {A B : List (List Char) → Prop} {args : List (List Char)}
    (h : EitherOrder A B args) : EitherOrder B A args := by
  cases h with
  | straight left right => exact .swapped right left
  | swapped left right => exact .straight right left

/-- Arguments of the first kind in front take the place of those that follow, which are none. -/
theorem EitherOrder.cons {A A' B : List (List Char) → Prop} {front args : List (List Char)}
    (hA : ∀ {a}, A a → a = [] ∧ A' front) (h : EitherOrder A B args) :
    EitherOrder A' B (front ++ args) := by
  cases h with
  | straight left right =>
    obtain ⟨rfl, hfront⟩ := hA left
    rw [List.nil_append]
    exact .straight hfront right
  | swapped left right =>
    obtain ⟨rfl, hfront⟩ := hA left
    rw [List.append_nil]
    exact .straight hfront right

/-- Some arguments give the options of the command that reads records. -/
abbrev SetsOptions (o o' : RunOptions) : List (List Char) → Prop :=
  EitherOrder (SetsInput o.input · o'.input) (SetsSize o.batchSize · o'.batchSize)

theorem setsOptions_nil (o : RunOptions) : SetsOptions o o [] := by
  have h : SetsOptions o o ([] ++ []) := .straight (.nothing _) (.nothing _)
  exact h

theorem changes_outerFlags_iff {before after : Option (List Char)} {args : List (List Char)} :
    Changes outerFlags before args after ↔ SetsPath before args after := by
  refine changes_iff_sets List.mem_cons_self (by simp [outerFlags, helpFlag]) ?_
  intro text path
  rw [Option.ite_none_left_eq_some, List.isEmpty_iff, Option.some.injEq]
  exact and_congr_left fun h => h ▸ Iff.rfl

theorem changes_listFlags_iff {before after : Option ℕ} {args : List (List Char)} :
    Changes listFlags before args after ↔ SetsLimit before args after :=
  changes_iff_sets List.mem_cons_self (by simp [listFlags, helpFlag])
    fun _ _ => Decimal.word?_eq_some_iff

theorem changes_of_setsInput {o : RunOptions} {args : List (List Char)} {input : Option (List Char)}
    (h : SetsInput o.input args input) : Changes runFlags o args { o with input } := by
  obtain ⟨before, batchSize⟩ := o
  obtain _ | @⟨text, args, _, spells, rfl⟩ := h
  · exact .nil _
  · have hmem : runFlags[0] ∈ runFlags := List.mem_cons_self
    have h : Changes runFlags { batchSize } (args ++ []) { input := some text, batchSize } :=
      .cons hmem rfl spells rfl (.nil _)
    rwa [List.append_nil] at h

theorem changes_of_setsSize {o : RunOptions} {args : List (List Char)} {batchSize : Option ℕ}
    (h : SetsSize o.batchSize args batchSize) : Changes runFlags o args { o with batchSize } := by
  obtain ⟨input, before⟩ := o
  obtain _ | @⟨text, args, n, spells, means⟩ := h
  · exact .nil _
  · have hmem : runFlags[1] ∈ runFlags := List.mem_cons_of_mem _ List.mem_cons_self
    have hn : once Decimal.word? text none = some (some n) :=
      once_eq_some_iff.2 ⟨rfl, n, Decimal.word?_eq_some_iff.2 means, rfl⟩
    have h : Changes runFlags { input } (args ++ []) { input, batchSize := some n } :=
      .cons hmem rfl spells (Option.map_eq_some_iff.2 ⟨_, hn, rfl⟩) (.nil _)
    rwa [List.append_nil] at h

theorem changes_runFlags_iff {o o' : RunOptions} {args : List (List Char)} :
    Changes runFlags o args o' ↔ SetsOptions o o' args := by
  constructor
  · intro h
    induction h with
    | nil o => exact setsOptions_nil o
    | cons mem meaning spells given _ ih =>
      simp only [runFlags, List.mem_cons, List.not_mem_nil, or_false] at mem
      rcases mem with rfl | rfl | rfl
      · obtain rfl := Meaning.value.inj meaning
        obtain ⟨input, honce, rfl⟩ := Option.map_eq_some_iff.1 given
        obtain ⟨hnone, v, hv, rfl⟩ := once_eq_some_iff.1 honce
        obtain rfl := Option.some.inj hv
        refine ih.cons fun h => ?_
        rw [hnone]
        exact h.behind spells rfl
      · obtain rfl := Meaning.value.inj meaning
        obtain ⟨size, honce, rfl⟩ := Option.map_eq_some_iff.1 given
        obtain ⟨hnone, n, hn, rfl⟩ := once_eq_some_iff.1 honce
        refine (ih.swap.cons fun h => ?_).swap
        rw [hnone]
        exact h.behind spells (Decimal.word?_eq_some_iff.1 hn)
      · cases meaning
  · rintro (⟨input, size⟩ | ⟨input, size⟩)
    · exact (changes_of_setsInput input).append (changes_of_setsSize size)
    · exact (changes_of_setsSize size).append (changes_of_setsInput input)

/-- The arguments of a command line that spells an invocation: the options in front of the command,
its name, and the options behind it, which a sign may close. -/
inductive IsSpelledBy : Invocation → List (List Char) → Prop
  | run {dbPath input : Option (List Char)} {batchSize : Option ℕ}
      {outer inner close : List (List Char)} (path : SetsPath none outer dbPath)
      (options : SetsOptions {} { input, batchSize } inner) (closes : Closes close none) :
      IsSpelledBy ⟨dbPath, .run input batchSize⟩ (outer ++ "run".toList :: (inner ++ close))
  | list {dbPath : Option (List Char)} {limit : Option ℕ} {outer inner close : List (List Char)}
      (path : SetsPath none outer dbPath) (option : SetsLimit none inner limit)
      (closes : Closes close none) :
      IsSpelledBy ⟨dbPath, .list (limit.getD 20)⟩ (outer ++ "list".toList :: (inner ++ close))

theorem exists_of_map_eq_ok {ε α β : Type} {x : Except ε α} {f : α → β} {b : β}
    (h : x.map f = .ok b) : ∃ a, x = .ok a ∧ f a = b := by
  cases x with
  | error e => cases h
  | ok a => exact ⟨a, rfl, Except.ok.inj h⟩

theorem commandOf_run (args : List (List Char)) :
    commandOf "run".toList args =
      (readAll runFlags {} args).map fun o => .run o.input o.batchSize := rfl

theorem commandOf_list (args : List (List Char)) :
    commandOf "list".toList args =
      (readAll listFlags none args).map fun limit => .list (limit.getD 20) := rfl

/-- Only the names of the two commands are followed by their options. -/
theorem name_of_commandOf {name : List Char} {args : List (List Char)} {command : Command}
    (h : commandOf name args = .ok command) : name = "run".toList ∨ name = "list".toList := by
  have htopic : ∀ topic, Topic.ofName? name = some topic →
      topic = .run ∧ "run".toList = name ∨ topic = .list ∧ "list".toList = name ∨ topic = .help := by
    intro topic htopic
    obtain ⟨entry, hfind, rfl⟩ := Option.map_eq_some_iff.1 htopic
    have hname : entry.1.toList = name := by simpa using List.find?_some hfind
    have hmem := List.mem_of_find?_eq_some hfind
    simp only [List.mem_cons, List.not_mem_nil, or_false] at hmem
    rcases hmem with rfl | rfl | rfl
    · exact .inl ⟨rfl, hname⟩
    · exact .inr (.inl ⟨rfl, hname⟩)
    · exact .inr (.inr rfl)
  unfold commandOf at h
  split at h
  · rcases htopic _ ‹_› with ⟨-, hname⟩ | ⟨htopic, -⟩ | htopic
    · exact .inl hname.symm
    · cases htopic
    · cases htopic
  · rcases htopic _ ‹_› with ⟨htopic, -⟩ | ⟨-, hname⟩ | htopic
    · cases htopic
    · exact .inr hname.symm
    · cases htopic
  · cases h
  · cases h

/-- The options in front of the first word are read before the command behind them. -/
theorem parse_eq_ok_iff_scan {args : List (List Char)} {i : Invocation} :
    parse args = .ok i ↔ ∃ name behind,
      scan outerFlags (some none) args =
        .ok { given := some i.dbPath, rest := some (name, behind) } ∧
      commandOf name behind = .ok i.command := by
  obtain ⟨dbPath, command⟩ := i
  unfold parse
  cases hscan : scan outerFlags (some none) args with
  | error n => simp [bind, Except.bind]
  | ok outer =>
    obtain ⟨given, _ | ⟨name, behind⟩⟩ := outer
    · simp [bind, Except.bind, throw, throwThe, MonadExceptOf.throw]
    · cases hcommand : commandOf name behind with
      | error n => simp [bind, Except.bind, hcommand]
      | ok found =>
        cases given <;>
          simp [bind, Except.bind, hcommand, throw, throwThe, MonadExceptOf.throw, pure,
            Except.pure, and_comm]

/-- A command line is its options, the name of the command and what stands behind it. -/
theorem parse_eq_ok_iff_commandOf {args : List (List Char)} {i : Invocation} :
    parse args = .ok i ↔ ∃ outer name behind, args = outer ++ name :: behind ∧
      SetsPath none outer i.dbPath ∧ looksLikeOption name = false ∧
      commandOf name behind = .ok i.command := by
  simp only [parse_eq_ok_iff_scan, scan_eq_ok_iff isKnown_outerFlags, changes_outerFlags_iff]
  constructor
  · rintro ⟨name, behind, ⟨outer, close, rfl, hpath, hclose⟩, hcommand⟩
    cases hclose with
    | word plain => exact ⟨outer, name, behind, rfl, hpath, plain, hcommand⟩
  · rintro ⟨outer, name, behind, rfl, hpath, plain, hcommand⟩
    exact ⟨name, behind, ⟨outer, _, rfl, hpath, .word plain⟩, hcommand⟩

/-- **The invocations that command lines spell.** -/
theorem parse_eq_ok_iff {args : List (List Char)} {i : Invocation} :
    parse args = .ok i ↔ i.IsSpelledBy args := by
  rw [parse_eq_ok_iff_commandOf]
  constructor
  · rintro ⟨outer, name, behind, rfl, hpath, -, hcommand⟩
    obtain ⟨dbPath, command⟩ := i
    rcases name_of_commandOf hcommand with rfl | rfl
    · rw [commandOf_run] at hcommand
      obtain ⟨o, hread, rfl⟩ := exists_of_map_eq_ok hcommand
      obtain ⟨inner, close, rfl, hinner, hclose⟩ := (readAll_eq_ok_iff isKnown_runFlags).1 hread
      exact .run hpath (changes_runFlags_iff.1 hinner) hclose
    · rw [commandOf_list] at hcommand
      obtain ⟨limit, hread, rfl⟩ := exists_of_map_eq_ok hcommand
      obtain ⟨inner, close, rfl, hinner, hclose⟩ := (readAll_eq_ok_iff isKnown_listFlags).1 hread
      exact .list hpath (changes_listFlags_iff.1 hinner) hclose
  · rintro (⟨path, options, closes⟩ | ⟨path, option, closes⟩)
    · have hread := (readAll_eq_ok_iff isKnown_runFlags).2
        ⟨_, _, rfl, changes_runFlags_iff.2 options, closes⟩
      refine ⟨_, _, _, rfl, path, rfl, ?_⟩
      rw [commandOf_run, hread]
      rfl
    · have hread := (readAll_eq_ok_iff isKnown_listFlags).2
        ⟨_, _, rfl, changes_listFlags_iff.2 option, closes⟩
      refine ⟨_, _, _, rfl, path, rfl, ?_⟩
      rw [commandOf_list, hread]
      rfl

/-! ### Any texts -/

/-- A command line that reads records gives its options these texts, of use or not. -/
inductive GivesTexts (path input size : Option (List Char)) : List (List Char) → Prop
  | intro {outer inner close : List (List Char)} (ofPath : Sets 'd' "db-path" Eq none outer path)
      (options : EitherOrder (Sets 'i' "input" Eq none · input)
        (Sets 'b' "batch-size" Eq none · size) inner)
      (closes : Closes close none) :
      GivesTexts path input size (outer ++ "run".toList :: (inner ++ close))

section Texts

variable {path input size : Option (List Char)} {args outer : List (List Char)}

theorem setsPath_of_ne_nil (h : Sets 'd' "db-path" Eq none outer path) (hne : path ≠ some []) :
    SetsPath none outer path := by
  obtain _ | ⟨spells, rfl⟩ := h
  · exact .nothing _
  · exact .value spells ⟨fun h => hne (by rw [h]), rfl⟩

theorem setsSize_of_rel {batchSize : Option ℕ} (h : Sets 'b' "batch-size" Eq none args size)
    (hsize : Option.Rel Decimal.WritesWord size batchSize) : SetsSize none args batchSize := by
  obtain _ | ⟨spells, rfl⟩ := h
  · cases hsize
    exact .nothing _
  · cases hsize with
    | some hword => exact .value spells hword

/-- Texts of use spell an invocation. -/
theorem isSpelledBy_of_givesTexts (h : GivesTexts path input size args) (hpath : path ≠ some [])
    {batchSize : Option ℕ} (hsize : Option.Rel Decimal.WritesWord size batchSize) :
    IsSpelledBy ⟨path, .run input batchSize⟩ args := by
  obtain ⟨ofPath, options, closes⟩ := h
  exact .run (setsPath_of_ne_nil ofPath hpath)
    (options.mono (fun _ h => h) fun _ h => setsSize_of_rel h hsize) closes

/-- A size that writes no number is misuse. -/
theorem commandOf_of_unusable {text : List Char} {inner : List (List Char)}
    (options : EitherOrder (Sets 'i' "input" Eq none · input)
      (Sets 'b' "batch-size" Eq none · (some text)) inner)
    (hword : ∀ n, ¬Decimal.WritesWord text n) (close : List (List Char)) :
    commandOf "run".toList (inner ++ close) = .error .misuse := by
  have hnone : Decimal.word? text = none := by
    by_contra hsome
    obtain ⟨n, hn⟩ := Option.ne_none_iff_exists'.1 hsome
    exact hword n (Decimal.word?_eq_some_iff.1 hn)
  have hrefused : ∀ {before front : List (List Char)} {input : Option (List Char)},
      Changes runFlags {} before { input } →
      Sets 'b' "batch-size" Eq none front (some text) → ∀ args,
      readAll runFlags {} (before ++ (front ++ args)) = .error .misuse := by
    intro before front input hbefore hfront args
    obtain _ | ⟨spells, rfl⟩ := hfront
    have hmem : runFlags[1] ∈ runFlags := List.mem_cons_of_mem _ List.mem_cons_self
    refine readAll_of_refused isKnown_runFlags hbefore hmem rfl spells ?_ args
    simp [once, hnone]
  rw [commandOf_run]
  cases options with
  | straight ofInput ofSize =>
    have hinput := changes_of_setsInput (o := {}) ofInput
    rw [List.append_assoc, hrefused hinput ofSize]
    rfl
  | swapped ofInput ofSize =>
    have hstart : Changes runFlags {} [] {} := .nil _
    have hread := hrefused hstart ofSize
    simp only [List.nil_append] at hread
    rw [List.append_assoc, hread]
    rfl

/-- Texts are read, or they are misuse. -/
theorem commandOf_of_texts {inner close : List (List Char)}
    (options : EitherOrder (Sets 'i' "input" Eq none · input)
      (Sets 'b' "batch-size" Eq none · size) inner) (closes : Closes close none) :
    (∃ command, commandOf "run".toList (inner ++ close) = .ok command) ∨
      commandOf "run".toList (inner ++ close) = .error .misuse := by
  by_cases hsize : ∃ batchSize, Option.Rel Decimal.WritesWord size batchSize
  · obtain ⟨batchSize, hsize⟩ := hsize
    have hoptions : SetsOptions {} { input, batchSize } inner :=
      options.mono (fun _ h => h) fun _ h => setsSize_of_rel h hsize
    have hread := (readAll_eq_ok_iff isKnown_runFlags).2
      ⟨_, _, rfl, changes_runFlags_iff.2 hoptions, closes⟩
    rw [commandOf_run, hread]
    exact .inl ⟨_, rfl⟩
  · cases size with
    | none => exact absurd ⟨none, .none⟩ hsize
    | some text =>
      exact .inr (commandOf_of_unusable options (fun n hn => hsize ⟨some n, .some hn⟩) close)

/-- The first fault of a command line decides, and a value that is looked at late comes after the
command. -/
theorem parse_eq_misuse (hscan : scan outerFlags (some none) args = .error .misuse ∨
      ∃ given name behind,
        scan outerFlags (some none) args = .ok { given, rest := some (name, behind) } ∧
        (commandOf name behind = .error .misuse ∨
          given = none ∧ ∃ command, commandOf name behind = .ok command)) :
    parse args = .error .misuse := by
  unfold parse
  rcases hscan with hscan | ⟨given, name, behind, hscan, hcommand | ⟨rfl, command, hcommand⟩⟩
  · rw [hscan]
    rfl
  · rw [hscan]
    change (commandOf name behind >>= _) = _
    rw [hcommand]
    rfl
  · rw [hscan]
    change (commandOf name behind >>= _) = _
    rw [hcommand]
    rfl

/-- **A command line with an empty path, or with a size that writes no number, is misuse.** -/
theorem parse_of_unusable (h : GivesTexts path input size args)
    (hunusable : path = some [] ∨ ∃ text, size = some text ∧ ∀ n, ¬Decimal.WritesWord text n) :
    parse args = .error .misuse := by
  obtain @⟨outer, inner, close, ofPath, options, closes⟩ := h
  have hword : ∀ given, scan outerFlags given ("run".toList :: (inner ++ close)) =
      .ok { given, rest := some ("run".toList, inner ++ close) } :=
    scan_of_closes (.word rfl)
  refine parse_eq_misuse ?_
  by_cases hpath : path = some []
  · subst hpath
    obtain _ | ⟨spells, rfl⟩ := ofPath
    have hmem : outerFlags[0] ∈ outerFlags := List.mem_cons_self
    have hscan := scan_of_refused (a := none) (isKnown_outerFlags _ hmem) rfl spells rfl
    rcases hscan ("run".toList :: (inner ++ close)) with hscan | hscan
    · exact .inl hscan
    · refine .inr ⟨none, _, _, hscan.trans (hword none), ?_⟩
      rcases commandOf_of_texts options closes with hcommand | hcommand
      · exact .inr ⟨rfl, hcommand⟩
      · exact .inl hcommand
  · obtain ⟨text, rfl, htext⟩ := hunusable.resolve_left hpath
    have hchanges := changes_outerFlags_iff.2 (setsPath_of_ne_nil ofPath hpath)
    refine .inr ⟨some path, _, _, ?_, .inl (commandOf_of_unusable options htext close)⟩
    rw [scan_of_changes isKnown_outerFlags hchanges, hword]

end Texts

end Invocation

end TransferLedger
