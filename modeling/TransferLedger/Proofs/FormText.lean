import Mathlib.Tactic
import TransferLedger.Json.Form
import TransferLedger.Proofs.JsonText

/-!
# Objects that are written read back

A form reads an object whose members are the fields of the form, one after another, and takes from
each the value that its text is of.

* `Json.string_quote`, `Json.word_digits`, `Json.optional_string`: single values;
* `Json.mapping_eq_ok_iff`, `Json.refusing_eq_ok_iff`: readers followed by a function or a rule;
* `Json.Form.Fills`: the texts of some fields fill a draft, one field after another;
* `Json.Form.readMembers_members`: the members of an object are read in the order in which they are
  written;
* `Json.Form.decode_object`: a whole text that is an object reads back;
* `Json.isPrintable_object`: an object has no control characters when its values have none.
-/

namespace TransferLedger.Json

/-! ### Single values -/

/-- A written string is read, whatever follows. -/
theorem string_quote (s r : List Char) : string (quote s ++ r) = .ok (s, r) := by
  show string ('"' :: (s.flatMap escape ++ ['"'] ++ r)) = _
  rw [string, skipSpace_cons (by rfl), List.append_assoc, List.singleton_append]
  exact readText_quote s r

/-- The digits of a number of 64 bits are read as the number. -/
theorem word_digits (n : UInt64) {r : List Char} (hr : IsBehindValue r) :
    word (Decimal.ofNat n.toNat ++ r) = .ok (n, r) := by
  have hcanonical := Decimal.isCanonical_ofNat n.toNat
  have hbound : Decimal.value (Decimal.ofNat n.toNat) < Decimal.wordBound := by
    rw [Decimal.value_ofNat]
    exact n.toNat_lt
  have hread := readNumber_digits hcanonical hbound hr
  rw [Decimal.value_ofNat] at hread
  obtain ⟨c, s, hs⟩ := List.exists_cons_of_ne_nil hcanonical.1
  have hc := hcanonical.2.1 c (by simp [hs])
  rw [hs, List.cons_append] at hread ⊢
  rw [word, skipSpace_cons (isSpace_of_isDigit hc)]
  simp only [hc, or_true, if_true, hread, UInt64.ofNat_toNat]

/-- An optional string is read, be it there or not. -/
theorem optional_string (o : Option (List Char)) (r : List Char) :
    optional string (optionalText quote o ++ r) = .ok (o, r) := by
  cases o with
  | none => rfl
  | some s =>
    have hskip : skipSpace (quote s ++ r) = quote s ++ r := skipSpace_cons (by rfl) _
    rw [optionalText, optional, hskip]
    split
    · -- A string opens with a quote.
      rename_i heq
      exact absurd (List.cons.inj heq).1 (by decide)
    · rw [string_quote]

theorem mapping_eq_ok_iff {α β : Type} {f : α → β} {read : Reader α} {s r : List Char} {b : β} :
    mapping f read s = .ok (b, r) ↔ ∃ a, read s = .ok (a, r) ∧ f a = b := by
  rw [mapping]
  constructor
  · intro h
    split at h
    · obtain ⟨rfl, rfl⟩ := Prod.mk.inj (Except.ok.inj h)
      exact ⟨_, ‹_›, rfl⟩
    · cases h
  · rintro ⟨a, ha, rfl⟩
    rw [ha]

theorem refusing_eq_ok_iff {α β ε : Type} {message : ε → String} {rule : α → Except ε β}
    {read : Reader α} {s r : List Char} {b : β} :
    refusing message rule read s = .ok (b, r) ↔ ∃ a, read s = .ok (a, r) ∧ rule a = .ok b := by
  rw [refusing]
  constructor
  · intro h
    split at h
    · cases h
    · split at h
      · obtain ⟨rfl, rfl⟩ := Prod.mk.inj (Except.ok.inj h)
        exact ⟨_, ‹_›, ‹_›⟩
      · cases h
  · rintro ⟨a, ha, hb⟩
    rw [ha]
    simp only [hb]

theorem mapping_of_ok {α β : Type} (f : α → β) {read : Reader α} {s r : List Char} {a : α}
    (h : read s = .ok (a, r)) : mapping f read s = .ok (f a, r) :=
  mapping_eq_ok_iff.2 ⟨a, h, rfl⟩

theorem refusing_of_ok {α β ε : Type} {message : ε → String} {rule : α → Except ε β}
    {read : Reader α} {s r : List Char} {a : α} {b : β} (h : read s = .ok (a, r))
    (hb : rule a = .ok b) : refusing message rule read s = .ok (b, r) :=
  refusing_eq_ok_iff.2 ⟨a, h, hb⟩

/-! ### Members -/

/-- The members of an object behind the first ones. -/
def furtherMembers : List (String × List Char) → List Char
  | [] => []
  | m :: ms => ',' :: members (m :: ms)

theorem members_cons (name : String) (value : List Char) (ms : List (String × List Char)) :
    members ((name, value) :: ms) = quote name.toList ++ ':' :: (value ++ furtherMembers ms) := by
  cases ms with
  | nil => rw [members, furtherMembers, List.append_nil]
  | cons m ms => simp [members, furtherMembers]

/-- A value stands before the comma of the next member or before the closing brace. -/
theorem isBehindValue_furtherMembers (ms : List (String × List Char)) (r : List Char) :
    IsBehindValue (furtherMembers ms ++ '\x7d' :: r) := by
  cases ms with
  | nil => exact isBehindValue_cons (.inr (.inr rfl)) r
  | cons m ms => exact isBehindValue_cons (.inl rfl) _

/-- Every member takes a character at least. -/
theorem length_le_members (ms : List (String × List Char)) : ms.length ≤ (members ms).length := by
  induction ms with
  | nil => exact le_rfl
  | cons m ms ih =>
    obtain ⟨name, value⟩ := m
    have hmore : ms.length ≤ (furtherMembers ms).length := by
      cases ms with
      | nil => exact le_rfl
      | cons m ms => exact ih.trans (Nat.le_succ _)
    rw [members_cons, quote]
    simp only [List.length_append, List.length_cons]
    omega

theorem isPrintable_members {ms : List (String × List Char)} (h : ∀ m ∈ ms, IsPrintable m.2) :
    IsPrintable (members ms) := by
  induction ms with
  | nil => exact fun c hc => absurd hc List.not_mem_nil
  | cons m ms ih =>
    obtain ⟨name, value⟩ := m
    obtain ⟨hvalue, hms⟩ := List.forall_mem_cons.1 h
    have hmore : IsPrintable (furtherMembers ms) := by
      cases ms with
      | nil => exact fun c hc => absurd hc List.not_mem_nil
      | cons m ms => exact isPrintable_cons (by decide) (ih hms)
    rw [members_cons]
    exact isPrintable_append (isPrintable_quote _)
      (isPrintable_cons (by decide) (isPrintable_append hvalue hmore))

/-- An object has no control characters when its values have none. -/
theorem isPrintable_object {ms : List (String × List Char)} (h : ∀ m ∈ ms, IsPrintable m.2) :
    IsPrintable (object ms) :=
  isPrintable_cons (by decide) (isPrintable_append (isPrintable_members h) (by decide))

namespace Form

variable {F D α : Type} (form : Form F D α)

/-- The members of an object that have fields for names. -/
def membersOf (ms : List (F × List Char)) : List (String × List Char) :=
  ms.map fun m => (form.name m.1, m.2)

theorem isPrintable_membersOf {text : F → List Char} (h : ∀ f, IsPrintable (text f))
    (fs : List F) : IsPrintable (object (form.membersOf (fs.map fun f => (f, text f)))) := by
  refine isPrintable_object fun m hm => ?_
  simp only [membersOf, List.map_map, List.mem_map] at hm
  obtain ⟨f, -, rfl⟩ := hm
  exact h f

/-- The texts of some fields fill a draft, one field after another, whatever stands behind them. -/
inductive Fills : D → List (F × List Char) → D → Prop
  | nil (d : D) : Fills d [] d
  | cons {d d' e : D} {f : F} {text : List Char} {ms : List (F × List Char)}
      (named : form.named (form.name f).toList = some f) (unfilled : form.filled d f = false)
      (reads : ∀ r, IsBehindValue r → form.fill d f (text ++ r) = .ok (d', r))
      (rest : Fills d' ms e) : Fills d ((f, text) :: ms) e

variable {form}

/-- The name of the first member is read. -/
theorem nextName_quote (name r : List Char) :
    nextName true (quote name ++ r) = .ok (some name, r) := by
  show nextName true ('"' :: (name.flatMap escape ++ ['"'] ++ r)) = _
  rw [List.append_assoc, List.singleton_append, nextName, skipSpace_cons (by rfl)]
  simp [readText_quote]

/-- The name of a further member is read behind its comma. -/
theorem nextName_comma (name r : List Char) :
    nextName false (',' :: (quote name ++ r)) = .ok (some name, r) := by
  have hskip : skipSpace (quote name ++ r) = quote name ++ r := skipSpace_cons (by rfl) _
  have hquote : quote name ++ r = '"' :: (name.flatMap escape ++ '"' :: r) := by
    rw [quote, List.cons_append, List.append_assoc, List.singleton_append]
  rw [nextName, skipSpace_cons (by rfl)]
  simp only [hskip]
  rw [hquote]
  simp [readText_quote]

theorem readColon_cons (r : List Char) : readColon (':' :: r) = .ok r := rfl

/-- What reading one member comes to. -/
theorem readMembers_of_name {turns : ℕ} {first : Bool} {d d' : D} {f : F} {s text r : List Char}
    (hname : nextName first s = .ok (some (form.name f).toList, ':' :: (text ++ r)))
    (named : form.named (form.name f).toList = some f) (unfilled : form.filled d f = false)
    (reads : form.fill d f (text ++ r) = .ok (d', r)) :
    form.readMembers (turns + 1) first d s = form.readMembers turns false d' r := by
  simp only [readMembers, hname, named, unfilled, Bool.false_eq_true, if_false, readColon_cons,
    reads]

/-- Further members are read in the order in which they are written, up to the closing brace. -/
theorem readMembers_furtherMembers {d e : D} {ms : List (F × List Char)} (h : form.Fills d ms e)
    {turns : ℕ} (hturns : ms.length < turns) (r : List Char) :
    form.readMembers turns false d (furtherMembers (form.membersOf ms) ++ '\x7d' :: r) =
      .ok (e, r) := by
  induction h generalizing turns with
  | nil d =>
    obtain ⟨turns, rfl⟩ := Nat.exists_eq_add_of_lt hturns
    rfl
  | @cons d d' e f text ms named unfilled reads _ ih =>
    obtain _ | turns := turns
    · exact absurd hturns (Nat.not_lt_zero _)
    · have hbehind := isBehindValue_furtherMembers (form.membersOf ms) r
      have htext : furtherMembers (form.membersOf ((f, text) :: ms)) ++ '\x7d' :: r =
          ',' :: (quote (form.name f).toList ++
            ':' :: (text ++ (furtherMembers (form.membersOf ms) ++ '\x7d' :: r))) := by
        rw [membersOf, List.map_cons, furtherMembers, members_cons]
        simp [membersOf]
      rw [htext, readMembers_of_name (nextName_comma _ _) named unfilled (reads _ hbehind)]
      exact ih (Nat.lt_of_succ_lt_succ hturns)

/-- So are all members, behind the opening brace. -/
theorem readMembers_members {d e : D} {ms : List (F × List Char)} (h : form.Fills d ms e)
    {turns : ℕ} (hturns : ms.length < turns) (r : List Char) :
    form.readMembers turns true d (members (form.membersOf ms) ++ '\x7d' :: r) = .ok (e, r) := by
  obtain _ | turns := turns
  · exact absurd hturns (Nat.not_lt_zero _)
  · cases h with
    | nil => rfl
    | @cons _ d' _ f text ms named unfilled reads rest =>
      have hbehind := isBehindValue_furtherMembers (form.membersOf ms) r
      have htext : members (form.membersOf ((f, text) :: ms)) ++ '\x7d' :: r =
          quote (form.name f).toList ++
            ':' :: (text ++ (furtherMembers (form.membersOf ms) ++ '\x7d' :: r)) := by
        rw [membersOf, List.map_cons, members_cons]
        simp [membersOf]
      rw [htext, readMembers_of_name (nextName_quote _ _) named unfilled (reads _ hbehind)]
      exact readMembers_furtherMembers rest (Nat.lt_of_succ_lt_succ hturns) r

/-! ### Objects -/

/-- An object is read, with white space in front and whatever follows. -/
theorem read_object {e : D} {ms : List (F × List Char)} (h : form.Fills form.blank ms e) {a : α}
    (finish : form.finish e = some a) {front : List Char}
    (hfront : ∀ c ∈ front, isSpace c = true) (r : List Char) :
    form.read (front ++ (object (form.membersOf ms) ++ r)) = .ok (a, r) := by
  have hturns : ms.length < (members (form.membersOf ms) ++ '\x7d' :: r).length + 1 := by
    have := length_le_members (form.membersOf ms)
    rw [membersOf, List.length_map, ← membersOf] at this
    rw [List.length_append]
    omega
  have hobject : object (form.membersOf ms) ++ r =
      '\x7b' :: (members (form.membersOf ms) ++ '\x7d' :: r) := by
    rw [object, List.cons_append, List.cons_append, List.append_assoc, List.singleton_append]
  have hclose : form.close e = .ok a := by rw [close, finish]
  rw [hobject, read, skipSpace_append hfront (by rfl)]
  simp only [if_true, readMembers_members h hturns, hclose]

/-- A whole text that is an object reads back, with white space around it. -/
theorem decode_object {e : D} {ms : List (F × List Char)} (h : form.Fills form.blank ms e) {a : α}
    (finish : form.finish e = some a) {front behind : List Char}
    (hfront : ∀ c ∈ front, isSpace c = true) (hbehind : ∀ c ∈ behind, isSpace c = true) :
    decode form.read (front ++ object (form.membersOf ms) ++ behind) = .ok a := by
  have hskip : skipSpace behind = [] := List.dropWhile_eq_nil_iff.2 hbehind
  rw [decode, List.append_assoc, read_object h finish hfront]
  simp only [hskip, List.isEmpty_nil, if_true]

end Form

end TransferLedger.Json
