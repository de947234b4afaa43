import Mathlib.Tactic
import TransferLedger.Command.Flag
import TransferLedger.Text.Span

/-!
# What a scan of options reads

Options stand in a row. Each has its value in the same argument or in the next one, and what stands
behind the last of them closes the row.

* `Flag.Opens`, `Flag.Spells`: the arguments that give an option a value;
* `Flag.Changes`, `Flag.Closes`: options in a row, and what closes them;
* `Flag.scan_eq_ok_iff`, `Flag.readAll_eq_ok_iff`: what is read, and what is given then;
* `Flag.scan_of_refused`, `Flag.readAll_of_refused`: what a value leads to that is refused;
* `Flag.Sets`: the arguments that give an option at most once.
-/

namespace TransferLedger

namespace Flag

variable {α β : Type} {known : List (Flag α)} {f : Flag α} {apply : List Char → α → Option α}
variable {short : Char} {long : String} {value arg : List Char} {args : List (List Char)}

/-! ### One option -/

/-- An argument has the name of an option, alone or with a value. Between a short name and its value
an equals sign may be left out, unless it would be read into the value or nothing be left. -/
inductive Opens (short : Char) (long : String) : List Char → Option (List Char) → Prop
  | long : Opens short long ('-' :: '-' :: long.toList) none
  | long_equals {value : List Char} :
      Opens short long ('-' :: '-' :: (long.toList ++ '=' :: value)) (some value)
  | short : Opens short long ['-', short] none
  | short_equals {value : List Char} : Opens short long ('-' :: short :: '=' :: value) (some value)
  | joined {value : List Char} (some_in : value ≠ []) (plain : value.head? ≠ some '=') :
      Opens short long ('-' :: short :: value) (some value)

/-- Some arguments give an option a value. In an argument of its own the value does not look like
an option. -/
inductive Spells (short : Char) (long : String) (value : List Char) : List (List Char) → Prop
  | together {arg : List Char} (opens : Opens short long arg (some value)) :
      Spells short long value [arg]
  | apart {arg : List Char} (opens : Opens short long arg none)
      (plain : looksLikeOption value = false) : Spells short long value [arg, value]

/-- An option is found among others by either of its names. -/
structure IsKnown (known : List (Flag α)) (f : Flag α) : Prop where
  by_long : (known.find? fun g => g.long.toList == f.long.toList) = some f
  by_short : (known.find? fun g => g.short == f.short) = some f
  long_ne_nil : f.long.toList ≠ []
  long_plain : f.long.toList.all (· != '=') = true
  short_ne_dash : f.short ≠ '-'

theorem ask_long (known : List (Flag α)) {name behind : List Char}
    (hname : name.all (· != '=') = true) (hbehind : ∀ c ∈ behind.head?, (c != '=') = false) :
    ask known ('-' :: '-' :: (name ++ behind)) =
      (known.find? fun g => g.long.toList == name).bind fun g => g.askLong behind.tail? := by
  have hall := List.all_eq_true.1 hname
  simp only [ask, List.takeWhile_append_of_pos hall, List.dropWhile_append_of_pos hall,
    Text.takeWhile_of_head hbehind, Text.dropWhile_of_head hbehind, List.append_nil]
  cases behind <;> rfl

theorem ask_short {c : Char} (hc : c ≠ '-') (rest : List Char) :
    ask known ('-' :: c :: rest) =
      (known.find? fun g => g.short == c).map fun g => g.askShort rest := by
  unfold ask
  split
  · rename_i h
    exact absurd (List.cons.inj (List.cons.inj h).2).1 hc
  · rename_i h
    obtain ⟨rfl, rfl⟩ := List.cons.inj (List.cons.inj h).2
    rfl
  · rename_i h
    exact absurd rfl (h c rest)

theorem askLong_eq_change_iff {own own' : Option (List Char)} :
    f.askLong own = some (.change apply own') ↔ f.meaning = .value apply ∧ own = own' := by
  unfold askLong
  split <;> simp_all

/-- Behind a short name stands nothing, an equals sign with a value, or a value. -/
theorem askShort_eq_change_iff {rest : List Char} {own : Option (List Char)} :
    f.askShort rest = .change apply own ↔
      f.meaning = .value apply ∧
        (rest = [] ∧ own = none ∨ (∃ value, rest = '=' :: value ∧ own = some value) ∨
          rest ≠ [] ∧ rest.head? ≠ some '=' ∧ own = some rest) := by
  cases hmeaning : f.meaning with
  | notice n => simp [askShort, hmeaning]
  | value apply' =>
    rcases rest with _ | ⟨c, rest⟩
    · simp [askShort, hmeaning, eq_comm]
    · by_cases hc : c = '='
      · subst hc
        simp [askShort, hmeaning, eq_comm]
      · simp [askShort, hmeaning, hc, eq_comm]

/-- An option that is known asks for a change when an argument has its name. -/
theorem ask_of_opens (hf : IsKnown known f) (hmeaning : f.meaning = .value apply)
    {own : Option (List Char)} (h : Opens f.short f.long arg own) :
    ask known arg = some (.change apply own) := by
  have hshort : ∀ rest, ask known ('-' :: f.short :: rest) = some (f.askShort rest) := fun rest => by
    rw [ask_short hf.short_ne_dash, hf.by_short, Option.map_some]
  cases h with
  | long =>
    have hnone : ∀ c ∈ ([] : List Char).head?, (c != '=') = false := by simp
    have hask := ask_long known hf.long_plain hnone
    rw [List.append_nil, hf.by_long] at hask
    exact hask.trans (askLong_eq_change_iff.2 ⟨hmeaning, rfl⟩)
  | @long_equals value =>
    have hequals : ∀ c ∈ ('=' :: value).head?, (c != '=') = false := by simp
    have hask := ask_long known hf.long_plain hequals
    rw [hf.by_long] at hask
    exact hask.trans (askLong_eq_change_iff.2 ⟨hmeaning, rfl⟩)
  | short =>
    rw [hshort, askShort_eq_change_iff.2 ⟨hmeaning, .inl ⟨rfl, rfl⟩⟩]
  | short_equals =>
    rw [hshort, askShort_eq_change_iff.2 ⟨hmeaning, .inr (.inl ⟨_, rfl, rfl⟩)⟩]
  | joined some_in plain =>
    rw [hshort, askShort_eq_change_iff.2 ⟨hmeaning, .inr (.inr ⟨some_in, plain, rfl⟩)⟩]

/-- What stands behind two dashes is a name, alone or in front of an equals sign. -/
theorem exists_name_append (body : List Char) :
    ∃ name behind, body = name ++ behind ∧ name.all (· != '=') = true ∧
      (behind = [] ∨ ∃ value, behind = '=' :: value) := by
  refine ⟨body.takeWhile (· != '='), body.dropWhile (· != '='),
    List.takeWhile_append_dropWhile.symm,
    List.all_takeWhile, ?_⟩
  cases h : body.dropWhile (· != '=') with
  | nil => exact .inl rfl
  | cons c value =>
    obtain rfl : c = '=' := by simpa [h] using List.head?_dropWhile_not (· != '=') body
    exact .inr ⟨value, rfl⟩

/-- Only an argument with the name of an option asks for a change. -/
theorem exists_opens_of_ask {own : Option (List Char)}
    (h : ask known arg = some (.change apply own)) :
    ∃ f ∈ known, f.meaning = .value apply ∧ Opens f.short f.long arg own := by
  have hask := h
  unfold ask at h
  split at h
  · rename_i body
    obtain ⟨name, behind, rfl, hname, hbehind⟩ := exists_name_append body
    have hhead : ∀ c ∈ behind.head?, (c != '=') = false := by
      rcases hbehind with rfl | ⟨value, rfl⟩ <;> simp
    rw [ask_long known hname hhead] at hask
    obtain ⟨f, hfind, hchange⟩ := Option.bind_eq_some_iff.1 hask
    obtain rfl : f.long.toList = name := by simpa using List.find?_some hfind
    obtain ⟨hmeaning, rfl⟩ := askLong_eq_change_iff.1 hchange
    refine ⟨f, List.mem_of_find?_eq_some hfind, hmeaning, ?_⟩
    rcases hbehind with rfl | ⟨value, rfl⟩
    · rw [List.append_nil]
      exact .long
    · exact .long_equals
  · rename_i d rest _
    obtain ⟨f, hfind, hchange⟩ := Option.map_eq_some_iff.1 h
    obtain rfl : f.short = d := by simpa using List.find?_some hfind
    obtain ⟨hmeaning, hown⟩ := askShort_eq_change_iff.1 hchange
    refine ⟨f, List.mem_of_find?_eq_some hfind, hmeaning, ?_⟩
    rcases hown with ⟨rfl, rfl⟩ | ⟨value, rfl, rfl⟩ | ⟨hsome, hplain, rfl⟩
    · exact .short
    · exact .short_equals
    · exact .joined hsome hplain
  · cases h

/-! ### Options in a row -/

/-- An argument with the name of an option is looked at as one. -/
theorem looksLikeOption_of_opens (hf : IsKnown known f) {own : Option (List Char)}
    (h : Opens f.short f.long arg own) : looksLikeOption arg = true ∧ arg ≠ ['-', '-'] := by
  have hdashes : '-' :: '-' :: f.long.toList ≠ ['-', '-'] := fun h => hf.long_ne_nil (by simpa using h)
  cases h with
  | long => exact ⟨rfl, hdashes⟩
  | long_equals => exact ⟨rfl, by simp⟩
  | short => exact ⟨rfl, by simpa using hf.short_ne_dash⟩
  | short_equals => exact ⟨rfl, by simp⟩
  | joined some_in => exact ⟨rfl, by simp [some_in]⟩

/-- An option with its value is read, and the scan goes on behind it. -/
theorem scan_of_spells (hf : IsKnown known f) (hmeaning : f.meaning = .value apply)
    {front : List (List Char)} (h : Spells f.short f.long value front) {a b : α}
    (hb : apply value a = some b) (args : List (List Char)) :
    scan known (some a) (front ++ args) = scan known (some b) args := by
  cases h with
  | together opens =>
    obtain ⟨hlooks, hne⟩ := looksLikeOption_of_opens hf opens
    rw [List.singleton_append, scan.eq_def]
    simp [hlooks, hne, ask_of_opens hf hmeaning opens, hb]
  | apart opens plain =>
    obtain ⟨hlooks, hne⟩ := looksLikeOption_of_opens hf opens
    rw [List.cons_append, List.singleton_append, scan.eq_def]
    simp [hlooks, hne, ask_of_opens hf hmeaning opens, hb, plain]

/-- Some options change what has been given, one after another. -/
inductive Changes (known : List (Flag α)) : α → List (List Char) → α → Prop
  | nil (a : α) : Changes known a [] a
  | cons {f : Flag α} {apply : List Char → α → Option α} {value : List Char}
      {front args : List (List Char)} {a b c : α} (mem : f ∈ known)
      (meaning : f.meaning = .value apply) (spells : Spells f.short f.long value front)
      (given : apply value a = some b) (rest : Changes known b args c) :
      Changes known a (front ++ args) c

theorem Changes.append {a b c : α} {front args : List (List Char)} (h : Changes known a front b)
    (h' : Changes known b args c) : Changes known a (front ++ args) c := by
  induction h with
  | nil => exact h'
  | cons mem meaning spells given _ ih =>
    rw [List.append_assoc]
    exact .cons mem meaning spells given (ih h')

/-- What may stand behind some options: nothing, the sign for their end, or a word and what follows
it. -/
inductive Closes : List (List Char) → Option (List Char × List (List Char)) → Prop
  | nothing : Closes [] none
  | sign : Closes [['-', '-']] none
  | word {name : List Char} {args : List (List Char)} (plain : looksLikeOption name = false) :
      Closes (name :: args) (some (name, args))

theorem scan_of_closes {rest : Option (List Char × List (List Char))} (h : Closes args rest)
    (given : Option α) : scan known given args = .ok { given, rest } := by
  cases h with
  | nothing => rfl
  | sign => rw [scan.eq_def]; rfl
  | @word name args plain =>
    have hne : name ≠ ['-', '-'] := fun h => by
      rw [h] at plain
      cases plain
    rw [scan.eq_def]
    simp [plain, hne]

/-- Options that change what has been given are read, and the scan goes on behind them. -/
theorem scan_of_changes (hk : ∀ f ∈ known, IsKnown known f) {a b : α} {front : List (List Char)}
    (h : Changes known a front b) (args : List (List Char)) :
    scan known (some a) (front ++ args) = scan known (some b) args := by
  induction h with
  | nil => rfl
  | cons mem meaning spells given _ ih =>
    rw [List.append_assoc, scan_of_spells (hk _ mem) meaning spells given, ih]

/-- Behind a value that is refused nothing is given. -/
theorem scan_none (known : List (Flag α)) (args : List (List Char)) :
    scan known none args = .error .misuse ∨
      ∃ rest, scan known none args = .ok { given := none, rest } := by
  cases args with
  | nil => exact .inr ⟨none, rfl⟩
  | cons arg args =>
    rw [scan.eq_def]
    dsimp only
    split_ifs
    · exact .inr ⟨none, rfl⟩
    · exact .inl rfl
    · split <;> first | exact .inl rfl | simp at *
    · exact .inr ⟨_, rfl⟩

/-- An option whose value is refused is refused at once, or behind it nothing is given. -/
theorem scan_of_refused (hf : IsKnown known f) (hmeaning : f.meaning = .value apply)
    {front : List (List Char)} (h : Spells f.short f.long value front) {a : α}
    (hnone : apply value a = none) (args : List (List Char)) :
    scan known (some a) (front ++ args) = .error .misuse ∨
      scan known (some a) (front ++ args) = scan known none args := by
  cases h with
  | together opens =>
    obtain ⟨hlooks, hne⟩ := looksLikeOption_of_opens hf opens
    rw [List.singleton_append, scan.eq_def]
    simp [hlooks, hne, ask_of_opens hf hmeaning opens, hnone]
  | apart opens plain =>
    obtain ⟨hlooks, hne⟩ := looksLikeOption_of_opens hf opens
    rw [List.cons_append, List.singleton_append, scan.eq_def]
    simp [hlooks, hne, ask_of_opens hf hmeaning opens, hnone, plain]

/-- Some options and what closes them, one option further in front. -/
theorem Changes.cons_closed {a b c : α} {front : List (List Char)}
    {rest : Option (List Char × List (List Char))} (mem : f ∈ known)
    (meaning : f.meaning = .value apply) (spells : Spells f.short f.long value front)
    (given : apply value a = some b)
    (h : ∃ front close, args = front ++ close ∧ Changes known b front c ∧ Closes close rest) :
    ∃ front' close, front ++ args = front' ++ close ∧ Changes known a front' c ∧
      Closes close rest := by
  obtain ⟨behind, close, rfl, hbehind, hclose⟩ := h
  exact ⟨front ++ behind, close, (List.append_assoc _ _ _).symm,
    .cons mem meaning spells given hbehind, hclose⟩

/-- A scan has read options and what closes them. -/
theorem exists_changes_of_scan {a b : α} {rest : Option (List Char × List (List Char))}
    (h : scan known (some a) args = .ok { given := some b, rest }) :
    ∃ front close, args = front ++ close ∧ Changes known a front b ∧ Closes close rest := by
  generalize hgiven : some a = given at h
  fun_induction scan known given args generalizing a with
  | case1 =>
    subst hgiven
    cases h
    exact ⟨[], [], rfl, .nil _, .nothing⟩
  | case2 given arg args hsign hempty =>
    subst hgiven
    cases h
    obtain rfl : arg = ['-', '-'] := by simpa using hsign
    obtain rfl : args = [] := by simpa using hempty
    exact ⟨[], [['-', '-']], rfl, .nil _, .sign⟩
  | case8 arg args _ _ apply value a' hask b' hb ih =>
    obtain rfl := Option.some.inj hgiven
    obtain ⟨f, hmem, hmeaning, hopens⟩ := exists_opens_of_ask hask
    exact Changes.cons_closed hmem hmeaning (.together hopens) hb (ih rfl h)
  | case11 arg _ _ apply a' hask value args hplain ih =>
    obtain rfl := Option.some.inj hgiven
    obtain ⟨f, hmem, hmeaning, hopens⟩ := exists_opens_of_ask hask
    have hspells : Spells f.short f.long value [arg, value] := .apart hopens (by simpa using hplain)
    cases hb : apply value a with
    | none =>
      rw [hb] at h
      rcases scan_none known args with hscan | ⟨rest', hscan⟩ <;>
        simp [hscan] at h
    | some b' =>
      rw [hb] at h ih
      exact Changes.cons_closed hmem hmeaning hspells hb (ih rfl h)
  | case12 given arg args _ hplain =>
    subst hgiven
    cases h
    exact ⟨[], arg :: args, rfl, .nil _, .word (by simpa using hplain)⟩
  | _ => simp at h

/-- **A scan reads options and what closes them, and nothing else.** -/
theorem scan_eq_ok_iff (hk : ∀ f ∈ known, IsKnown known f) {a b : α}
    {rest : Option (List Char × List (List Char))} :
    scan known (some a) args = .ok { given := some b, rest } ↔
      ∃ front close, args = front ++ close ∧ Changes known a front b ∧ Closes close rest := by
  constructor
  · exact exists_changes_of_scan
  · rintro ⟨front, close, rfl, hfront, hclose⟩
    rw [scan_of_changes hk hfront, scan_of_closes hclose]

/-- Options throughout are read to their end. -/
theorem readAll_eq_ok_iff (hk : ∀ f ∈ known, IsKnown known f) {a b : α} :
    readAll known a args = .ok b ↔
      ∃ front close, args = front ++ close ∧ Changes known a front b ∧ Closes close none := by
  rw [← scan_eq_ok_iff hk]
  unfold readAll
  constructor
  · intro h
    split at h
    · rename_i hscan
      cases h
      exact hscan
    · cases h
    · cases h
  · intro h
    rw [h]

/-- Options with a value that is refused among them are misuse. -/
theorem readAll_of_refused (hk : ∀ f ∈ known, IsKnown known f) {a b : α}
    {before front : List (List Char)} (hbefore : Changes known a before b) (hmem : f ∈ known)
    (hmeaning : f.meaning = .value apply) (h : Spells f.short f.long value front)
    (hnone : apply value b = none) (args : List (List Char)) :
    readAll known a (before ++ (front ++ args)) = .error .misuse := by
  rw [readAll, scan_of_changes hk hbefore]
  rcases scan_of_refused (hk f hmem) hmeaning h hnone args with hscan | hscan
  · rw [hscan]
  · rw [hscan]
    rcases scan_none known args with hscan | ⟨rest, hscan⟩ <;> rw [hscan]

/-! ### Options that are given at most once -/

theorem once_eq_some_iff {read : List Char → Option β} {before after : Option β} :
    once read value before = some after ↔
      before = none ∧ ∃ v, read value = some v ∧ after = some v := by
  cases before <;> simp [once, eq_comm]

/-- Some arguments give an option a value, if there is none before; or there are no arguments. -/
inductive Sets (short : Char) (long : String) (Means : List Char → β → Prop) :
    Option β → List (List Char) → Option β → Prop
  | nothing (v : Option β) : Sets short long Means v [] v
  | value {text : List Char} {args : List (List Char)} {v : β}
      (spells : Spells short long text args) (means : Means text v) :
      Sets short long Means none args (some v)

section Sets

variable {Means : List Char → β → Prop} {before after : Option β}

/-- What is set is not set again. -/
theorem Sets.of_some {v : β} (h : Sets short long Means (some v) args after) :
    args = [] ∧ after = some v := by
  cases h
  exact ⟨rfl, rfl⟩

/-- Nothing more sets what is set in front. -/
theorem Sets.behind {text : List Char} {v : β} {front : List (List Char)}
    (spells : Spells short long text front) (means : Means text v)
    (h : Sets short long Means (some v) args after) :
    args = [] ∧ Sets short long Means none front after := by
  obtain ⟨rfl, rfl⟩ := h.of_some
  exact ⟨rfl, .value spells means⟩

/-- When one of some options has a value, they change what that one sets. -/
theorem changes_iff_sets {known : List (Flag (Option β))} {read : List Char → Option β}
    (hmem : ⟨short, long, .value (once read)⟩ ∈ known)
    (honly : ∀ f ∈ known, ∀ apply, f.meaning = .value apply →
      f = ⟨short, long, .value (once read)⟩)
    (hread : ∀ text v, read text = some v ↔ Means text v) :
    Changes known before args after ↔ Sets short long Means before args after := by
  constructor
  · intro h
    induction h with
    | nil v => exact .nothing v
    | cons mem meaning spells given _ ih =>
      obtain rfl := honly _ mem _ meaning
      obtain rfl := Meaning.value.inj meaning
      obtain ⟨rfl, v, hv, rfl⟩ := once_eq_some_iff.1 given
      obtain ⟨rfl, hfront⟩ := ih.behind spells ((hread _ v).1 hv)
      rwa [List.append_nil]
  · rintro (_ | ⟨spells, means⟩)
    · exact .nil _
    · have hgiven := once_eq_some_iff.2 ⟨rfl, _, (hread _ _).2 means, rfl⟩
      have h := Changes.cons hmem rfl spells hgiven (.nil _)
      rwa [List.append_nil] at h

end Sets

end Flag

end TransferLedger
