import Mathlib.Tactic
import TransferLedger.Program
import TransferLedger.Proofs.Numeral
import TransferLedger.Proofs.Utf8Text

/-!
# Where a setting comes from

A setting is what its option tells; without one it is what its variable tells, if that is of use, and
otherwise it has its default. No other option and no other variable has a part in it.

* `Decimal.WritesWord`, `Decimal.word?_eq_some_iff`: the texts that are read as numbers of 64 bits;
* `Environment.HasText`, `Environment.HasWord`, `Environment.Warns`: what a variable tells, and
  what is reported of it;
* `Layered`: the value of a setting, from an option, a variable and a default;
* `Config.IsLayered`, `Plan.make_of_parse`: where all settings come from.
-/

namespace TransferLedger

/-! ### Numbers -/

namespace Decimal

/-- A text writes a number of 64 bits: one or more digits, behind a plus sign or none. -/
inductive WritesWord : List Char → ℕ → Prop
  | intro {sign ds : List Char} (signs : sign = [] ∨ sign = ['+']) (digits : Amount.IsDigits ds)
      (fits : value ds ≤ 2 ^ 64 - 1) : WritesWord (sign ++ ds) (value ds)

/-- What is left of a text without a plus sign in front. -/
def unsigned : List Char → List Char
  | '+' :: r => r
  | r => r

theorem unsigned_of_digits {ds : List Char} (h : Amount.IsDigits ds) : unsigned ds = ds := by
  unfold unsigned
  split
  · exact absurd rfl (digit_ne_sign (h.2 '+' List.mem_cons_self)).2
  · rfl

theorem exists_sign (s : List Char) : ∃ sign, (sign = [] ∨ sign = ['+']) ∧ s = sign ++ unsigned s := by
  unfold unsigned
  split
  · exact ⟨['+'], .inr rfl, rfl⟩
  · exact ⟨[], .inl rfl, rfl⟩

/-- A text is read as the number that stands behind its sign. -/
theorem word?_eq_some_unsigned_iff {s : List Char} {n : ℕ} :
    word? s = some n ↔
      Amount.IsDigits (unsigned s) ∧ value (unsigned s) ≤ 2 ^ 64 - 1 ∧ value (unsigned s) = n := by
  have hword : word? s = if !(unsigned s).isEmpty && (unsigned s).all Char.isDigit &&
      value (unsigned s) < wordBound then some (value (unsigned s)) else none := rfl
  have hbound : value (unsigned s) < wordBound ↔ value (unsigned s) ≤ 2 ^ 64 - 1 := by
    rw [wordBound, Nat.pow_eq]
    omega
  rw [hword, Option.ite_none_right_eq_some, Bool.and_eq_true, Bool.and_eq_true, decide_eq_true_iff,
    hbound, List.all_eq_true, Bool.not_eq_true', List.isEmpty_eq_false_iff, Option.some.injEq,
    Amount.IsDigits, and_assoc]

/-- The numbers of 64 bits are read, and nothing else is. -/
theorem word?_eq_some_iff {s : List Char} {n : ℕ} : word? s = some n ↔ WritesWord s n := by
  rw [word?_eq_some_unsigned_iff]
  constructor
  · rintro ⟨hdigits, hfits, rfl⟩
    obtain ⟨sign, hsign, hs⟩ := exists_sign s
    generalize unsigned s = ds at hs hdigits hfits ⊢
    subst hs
    exact .intro hsign hdigits hfits
  · rintro @⟨sign, ds, rfl | rfl, hdigits, hfits⟩
    · rw [List.nil_append, unsigned_of_digits hdigits]
      exact ⟨hdigits, hfits, rfl⟩
    · exact ⟨hdigits, hfits, rfl⟩

end Decimal

/-! ### Variables -/

namespace Environment

/-- A variable is set to a text. -/
def HasText (value : Option (List UInt8)) (s : List Char) : Prop := value = some (Text.Utf8.encode s)

/-- A variable is set to a text that writes a number. -/
def HasWord (value : Option (List UInt8)) (n : ℕ) : Prop :=
  ∃ s, HasText value s ∧ Decimal.WritesWord s n

/-- What is reported of a variable that should have a number: a text that writes none, once. -/
inductive Warns (key : String) (value : Option (List UInt8)) : List Event → Prop
  | once {s : List Char} (text : HasText value s) (unusable : ∀ n, ¬Decimal.WritesWord s n) :
      Warns key value [.settingIgnored key s]
  | never (usable : ∀ s, HasText value s → ∃ n, Decimal.WritesWord s n) : Warns key value []

variable {value : Option (List UInt8)}

theorem text?_eq_some_iff {s : List Char} : text? value = some s ↔ HasText value s := by
  constructor
  · intro h
    obtain ⟨bytes, rfl, hbytes⟩ := Option.bind_eq_some_iff.1 h
    cases hdecode : Text.Utf8.decode bytes with
    | error fault => simp [hdecode, Except.toOption] at hbytes
    | ok t =>
      obtain rfl : t = s := by simpa [hdecode, Except.toOption] using hbytes
      rw [HasText, Text.Utf8.encode_of_decode hdecode]
  · rintro rfl
    rw [text?, Option.bind_some, Text.Utf8.decode_encode]
    rfl

/-- What is read of a variable that should have a number, and what is reported of it. -/
theorem word?_spec (key : String) (value : Option (List UInt8)) :
    (∀ n, (word? key value).1 = some n ↔ HasWord value n) ∧ Warns key value (word? key value).2 := by
  have hunique : ∀ {s}, text? value = some s → ∀ {t}, HasText value t → t = s := by
    intro s hs t ht
    exact Option.some.inj ((text?_eq_some_iff.2 ht).symm.trans hs)
  cases htext : text? value with
  | none =>
    have hnone : ∀ s, ¬HasText value s := fun s hs => by
      rw [text?_eq_some_iff.2 hs] at htext
      cases htext
    simp only [word?, htext]
    refine ⟨fun n => iff_of_false nofun ?_, .never fun s hs => absurd hs (hnone s)⟩
    rintro ⟨s, hs, -⟩
    exact hnone s hs
  | some s =>
    have hs := text?_eq_some_iff.1 htext
    have hwrites : ∀ n, HasWord value n ↔ Decimal.word? s = some n := by
      intro n
      rw [Decimal.word?_eq_some_iff]
      constructor
      · rintro ⟨t, ht, hn⟩
        rwa [hunique htext ht] at hn
      · exact fun hn => ⟨s, hs, hn⟩
    cases hword : Decimal.word? s with
    | none =>
      simp only [word?, htext, hword]
      refine ⟨fun n => iff_of_false nofun ?_, .once hs fun n hn => ?_⟩
      · rw [hwrites, hword]
        exact nofun
      · rw [Decimal.word?_eq_some_iff.2 hn] at hword
        cases hword
    | some m =>
      simp only [word?, htext, hword]
      refine ⟨fun n => by rw [hwrites, hword], .never fun t ht => ?_⟩
      rw [hunique htext ht]
      exact ⟨m, Decimal.word?_eq_some_iff.1 hword⟩

end Environment

/-! ### Layers -/

section Layers

variable {α : Type} {given : Option α} {tells : α → Prop} {default : α}

/-- The value of a setting: what is given by an option, else what a variable tells, if it tells
anything of use, else a default. -/
inductive Layered (given : Option α) (tells : α → Prop) (default : α) : α → Prop
  | byOption {v : α} (h : given = some v) : Layered given tells default v
  | byVariable {v : α} (h : given = none) (told : tells v) : Layered given tells default v
  | byDefault (h : given = none) (silent : ∀ v, ¬tells v) : Layered given tells default default

/-- A setting has one value, and this is how it is found. -/
theorem layered_iff {said : Option α} (h : ∀ v, said = some v ↔ tells v) (v : α) :
    given.getD (said.getD default) = v ↔ Layered given tells default v := by
  cases given with
  | some u =>
    constructor
    · rintro rfl
      exact .byOption rfl
    · rintro (h | h | h) <;> cases h
      rfl
  | none =>
    cases said with
    | some u =>
      constructor
      · rintro rfl
        exact .byVariable rfl ((h u).1 rfl)
      · rintro (h' | ⟨-, hv⟩ | ⟨-, hsilent⟩)
        · cases h'
        · exact Option.some.inj ((h v).2 hv)
        · exact absurd ((h u).1 rfl) (hsilent u)
    | none =>
      have hsilent : ∀ v, ¬tells v := fun v hv => by cases (h v).2 hv
      constructor
      · rintro rfl
        exact .byDefault rfl hsilent
      · rintro (h' | ⟨-, hv⟩ | -)
        · cases h'
        · exact absurd hv (hsilent v)
        · rfl

end Layers

/-! ### All settings -/

namespace Invocation

/-- The input that an option names. -/
def givenInput (i : Invocation) : Option (List Char) :=
  match i.command with
  | .run input _ => input
  | .list _ => none

/-- The batch size that an option gives. -/
def givenBatchSize (i : Invocation) : Option ℕ :=
  match i.command with
  | .run _ batchSize => batchSize
  | .list _ => none

theorem config_eq (i : Invocation) (settings : Config) :
    i.config settings = { settings with
      dbPath := i.dbPath.getD settings.dbPath
      input := i.givenInput.getD settings.input
      batchSize := i.givenBatchSize.getD settings.batchSize } := by
  obtain ⟨dbPath, command⟩ := i
  cases command <;> rfl

end Invocation

/-- Every setting comes from its own option, its own variable or its own default. -/
structure Config.IsLayered (c : Config) (i : Invocation) (env : Environment) : Prop where
  dbPath : ∀ path, c.dbPath = path ↔
    Layered i.dbPath (Environment.HasText env.dbPath) "transfers.db".toList path
  input : ∀ path, c.input = path ↔
    Layered i.givenInput (Environment.HasText env.input) ['-'] path
  batchSize : ∀ size, c.batchSize = size ↔
    Layered i.givenBatchSize (Environment.HasWord env.batchSize) 500 size
  pollInterval : ∀ time, c.pollInterval = time ↔
    Layered none (Environment.HasWord env.pollInterval) 0 time

/-- The reports of both variables with numbers, one after the other. -/
def Environment.WarnsOf (env : Environment) (events : List Event) : Prop :=
  ∃ ofSize ofInterval, events = ofSize ++ ofInterval ∧
    Warns "TI_BATCH_SIZE" env.batchSize ofSize ∧
    Warns "TI_POLL_INTERVAL_MS" env.pollInterval ofInterval

/-- The plan of an invocation has its command, and the settings come from their layers. -/
theorem Plan.make_of_parse {args : List (List Char)} {i : Invocation} (env : Environment)
    (h : Invocation.parse args = .ok i) :
    ∃ plan, make args env = .ok plan ∧ plan.command = i.command ∧
      plan.config.IsLayered i env ∧ env.WarnsOf plan.events := by
  obtain ⟨hsize, hsizeWarns⟩ := Environment.word?_spec "TI_BATCH_SIZE" env.batchSize
  obtain ⟨hinterval, hintervalWarns⟩ :=
    Environment.word?_spec "TI_POLL_INTERVAL_MS" env.pollInterval
  have hmake : make args env = .ok
      ⟨i.command, i.config (Config.ofEnvironment env).1, (Config.ofEnvironment env).2⟩ := by
    rw [make, h]
    rfl
  refine ⟨_, hmake, rfl, ?_, _, _, rfl, hsizeWarns, hintervalWarns⟩
  -- No option gives the wait, which is a setting with two layers only.
  have hwait : ∀ time, (none : Option ℕ).getD
      ((Environment.word? "TI_POLL_INTERVAL_MS" env.pollInterval).1.getD 0) = time ↔
        Layered none (Environment.HasWord env.pollInterval) 0 time := layered_iff hinterval
  dsimp only
  rw [Invocation.config_eq]
  exact
    { dbPath := layered_iff fun _ => Environment.text?_eq_some_iff
      input := layered_iff fun _ => Environment.text?_eq_some_iff
      batchSize := layered_iff hsize
      pollInterval := hwait }

end TransferLedger
