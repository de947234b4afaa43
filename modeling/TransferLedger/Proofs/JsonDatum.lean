import Mathlib.Tactic
import TransferLedger.Proofs.FormText
import TransferLedger.Proofs.JsonGrammar

/-!
# What a field reads from a value

A field holds `null`, a string or a natural number. Its reader takes exactly the values that mean
one, however the value is spelled, and leaves what follows.

* `Json.Datum`, `Json.Means`: what the text of a value means to a field;
* `Json.Means.unique`: a text means one thing at most;
* `Json.string_eq_ok_iff`, `Json.word_eq_ok_iff`, `Json.optional_string_eq_ok_iff`: the readers of
  single values.
-/

namespace TransferLedger.Json

/-! ### Meaning -/

/-- What a field may hold. -/
inductive Datum
  | null
  | text (s : List Char)
  | natural (n : ℕ)
  deriving DecidableEq

/-- What the text of a value means: `null`, the text that a string spells, or the number of digits
without a needless zero. -/
inductive Means : List Char → Datum → Prop
  | null : Means ['n', 'u', 'l', 'l'] .null
  | text {s t : List Char} (spells : Spells s t) : Means ('"' :: (s ++ ['"'])) (.text t)
  | natural {ds : List Char} (integer : Decimal.IsCanonical ds) :
      Means ds (.natural (Decimal.value ds))

theorem means_null_iff {v : List Char} : Means v .null ↔ v = ['n', 'u', 'l', 'l'] := by
  constructor
  · rintro ⟨⟩
    rfl
  · rintro rfl
    exact .null

theorem means_text_iff {v t : List Char} :
    Means v (.text t) ↔ ∃ s, Spells s t ∧ v = '"' :: (s ++ ['"']) := by
  constructor
  · rintro @⟨⟩
    exact ⟨_, ‹_›, rfl⟩
  · rintro ⟨s, hs, rfl⟩
    exact .text hs

theorem means_natural_iff {v : List Char} {n : ℕ} :
    Means v (.natural n) ↔ Decimal.IsCanonical v ∧ Decimal.value v = n := by
  constructor
  · rintro @⟨⟩
    exact ⟨‹_›, rfl⟩
  · rintro ⟨hv, rfl⟩
    exact .natural hv

/-- The character that a text opens with tells which kind of thing it means. -/
theorem Means.head {v : List Char} {d : Datum} (h : Means v d) :
    ∃ c s, v = c :: s ∧ match d with
      | .null => c = 'n'
      | .text _ => c = '"'
      | .natural _ => c.isDigit = true := by
  cases h with
  | null => exact ⟨_, _, rfl, rfl⟩
  | text _ => exact ⟨_, _, rfl, rfl⟩
  | natural integer =>
    obtain ⟨c, s, rfl⟩ := List.exists_cons_of_ne_nil integer.1
    exact ⟨c, s, rfl, integer.2.1 c List.mem_cons_self⟩

/-- What means something is a value. -/
theorem Means.isValue {v : List Char} {d : Datum} (h : Means v d) : IsValue v := by
  cases h with
  | null => exact .null
  | text spells => exact .text spells.isContent
  | natural integer => exact .numeral (isNumeral_of_isCanonical integer)

/-- A text that is written as a string means itself. -/
theorem means_quote (s : List Char) : Means (quote s) (.text s) :=
  .text (readText_quote_iff.1 (readText_quote s []))

/-- A text means one thing at most. -/
theorem Means.unique {v : List Char} {d d' : Datum} (h : Means v d) (h' : Means v d') :
    d = d' := by
  obtain ⟨c, s, rfl, hc⟩ := h.head
  obtain ⟨_, _, heq, hc'⟩ := h'.head
  obtain ⟨rfl, rfl⟩ := List.cons.inj heq
  cases d <;> cases d' <;> dsimp only at hc hc'
  case null.null => rfl
  case text.text t t' =>
    obtain ⟨a, ha, hs⟩ := means_text_iff.1 h
    obtain ⟨a', ha', hs'⟩ := means_text_iff.1 h'
    obtain rfl : a = a' := by simpa [hs] using hs'
    rw [ha.unique ha']
  case natural.natural n n' =>
    rw [← (means_natural_iff.1 h).2, ← (means_natural_iff.1 h').2]
  all_goals
    subst_vars
    contradiction

/-! ### Values by their first character -/

section First

variable {s : List Char}

/-- A value that opens with a quote is a string. -/
theorem IsValue.of_quote (h : IsValue ('"' :: s)) : ∃ t, IsContent t ∧ s = t ++ ['"'] := by
  generalize hv : '"' :: s = v at h
  cases h with
  | text content => exact ⟨_, content, (List.cons.inj hv).2⟩
  | numeral h =>
    obtain ⟨c, t, rfl, hc⟩ := h.exists_cons
    obtain ⟨rfl, -⟩ := List.cons.inj hv
    exact absurd hc (by decide)
  | null | yes | no | list _ _ | object _ _ => exact absurd (List.cons.inj hv).1 (by decide)

/-- A value that opens with a minus sign or a digit is a numeral. -/
theorem IsValue.of_digit {c : Char} (h : IsValue (c :: s)) (hc : c = '-' ∨ c.isDigit = true) :
    IsNumeral (c :: s) := by
  generalize hv : c :: s = v at h
  cases h with
  | numeral h => exact h
  | null | yes | no | text _ | list _ _ | object _ _ =>
    obtain ⟨rfl, -⟩ := List.cons.inj hv
    exact absurd hc (by decide)

/-- A value that opens with an `n` is `null`. -/
theorem IsValue.of_n (h : IsValue ('n' :: s)) : s = ['u', 'l', 'l'] := by
  generalize hv : 'n' :: s = v at h
  cases h with
  | null => exact (List.cons.inj hv).2
  | numeral h =>
    obtain ⟨c, t, rfl, hc⟩ := h.exists_cons
    obtain ⟨rfl, -⟩ := List.cons.inj hv
    exact absurd hc (by decide)
  | yes | no | text _ | list _ _ | object _ _ => exact absurd (List.cons.inj hv).1 (by decide)

end First

/-! ### Readers -/

section Readers

variable {front v r r' : List Char} (hfront : IsSpacing front) (h : IsValue v)

include hfront h

/-- A string is read from the values that mean a text. -/
theorem string_eq_ok_iff {t : List Char} :
    string (front ++ (v ++ r)) = .ok (t, r') ↔ r' = r ∧ Means v (.text t) := by
  obtain ⟨c, s, rfl, hspace, -⟩ := h.exists_cons
  rw [List.cons_append, string, skipSpace_append hfront hspace]
  by_cases hc : c = '"'
  · subst hc
    obtain ⟨s, content, rfl⟩ := h.of_quote
    have hmeans : Means ('"' :: (s ++ ['"'])) (.text t) ↔ Spells s t := by
      rw [means_text_iff]
      constructor
      · rintro ⟨s', hs', heq⟩
        obtain rfl : s = s' := by simpa using heq
        exact hs'
      · exact fun hs => ⟨s, hs, rfl⟩
    rw [hmeans, List.append_assoc]
    exact readText_append_iff content
  · simp only [if_neg hc]
    constructor
    · intro hread
      cases hread
    · rintro ⟨-, hmeans⟩
      obtain ⟨_, _, heq, hquote⟩ := hmeans.head
      exact absurd ((List.cons.inj heq).1.trans hquote) hc

/-- A natural number is read from the values that mean one of 64 bits. -/
theorem word_eq_ok_iff (hr : IsBehindValue r) {x : UInt64} :
    word (front ++ (v ++ r)) = .ok (x, r') ↔ r' = r ∧ Means v (.natural x.toNat) := by
  obtain ⟨c, s, rfl, hspace, -⟩ := h.exists_cons
  rw [List.cons_append, word, skipSpace_append hfront hspace]
  by_cases hc : c = '-' ∨ c.isDigit = true
  · have hnumeral := h.of_digit hc
    have hread : ∀ n, readNumber (c :: s ++ r) = .ok (.natural n, r') ↔ _ := fun n =>
      readNumber_eq_natural_iff hnumeral hr
    simp only [if_pos hc, ← List.cons_append]
    rw [means_natural_iff]
    constructor
    · intro hword
      split at hword
      · rename_i n r'' hnumber
        obtain ⟨rfl, rfl⟩ := Prod.mk.inj (Except.ok.inj hword)
        obtain ⟨rfl, hcanonical, hvalue, hlt⟩ := (hread n).1 hnumber
        refine ⟨rfl, hcanonical, ?_⟩
        rw [hvalue, UInt64.toNat_ofNat_of_lt' hlt]
      · cases hword
      · cases hword
      · cases hword
    · rintro ⟨rfl, hcanonical, hvalue⟩
      have hnumber := (hread x.toNat).2 ⟨rfl, hcanonical, hvalue, x.toNat_lt⟩
      simp only [hnumber, UInt64.ofNat_toNat]
  · simp only [if_neg hc]
    constructor
    · intro hread
      cases hread
    · rintro ⟨-, hmeans⟩
      obtain ⟨_, _, heq, hdigit⟩ := hmeans.head
      exact absurd (.inr ((List.cons.inj heq).1 ▸ hdigit)) hc

/-- A string that may be left out is read from `null` and from the values that mean a text. -/
theorem optional_string_eq_ok_iff {o : Option (List Char)} :
    optional string (front ++ (v ++ r)) = .ok (o, r') ↔
      r' = r ∧ ((o = none ∧ Means v .null) ∨ ∃ t, o = some t ∧ Means v (.text t)) := by
  have hstring : ∀ t, string ([] ++ (v ++ r)) = .ok (t, r') ↔ _ := fun t =>
    string_eq_ok_iff isSpacing_nil h
  obtain ⟨c, s, rfl, hspace, -⟩ := h.exists_cons
  rw [optional, List.cons_append, skipSpace_append hfront hspace]
  by_cases hc : c = 'n'
  · subst hc
    obtain rfl := h.of_n
    have hnull : ∀ t, ¬Means ['n', 'u', 'l', 'l'] (.text t) := fun t ht =>
      Datum.noConfusion (Means.null.unique ht)
    simp only [List.cons_append, List.nil_append, readWord, if_true, means_null_iff]
    constructor
    · intro hread
      obtain ⟨rfl, rfl⟩ := Prod.mk.inj (Except.ok.inj hread)
      exact ⟨rfl, .inl ⟨rfl, trivial⟩⟩
    · rintro ⟨rfl, ⟨rfl, -⟩ | ⟨t, -, ht⟩⟩
      · rfl
      · exact absurd ht (hnull t)
  · have hnull : ¬Means (c :: s) .null := fun hmeans =>
      hc (List.cons.inj (means_null_iff.1 hmeans)).1
    split
    · exact absurd (List.cons.inj ‹_›).1 hc
    · simp only [hnull, and_false, false_or]
      constructor
      · intro hread
        split at hread
        · rename_i t r'' ht
          obtain ⟨rfl, rfl⟩ := Prod.mk.inj (Except.ok.inj hread)
          obtain ⟨rfl, hmeans⟩ := (hstring t).1 ht
          exact ⟨rfl, t, rfl, hmeans⟩
        · cases hread
      · rintro ⟨rfl, t, rfl, hmeans⟩
        have ht := (hstring t).2 ⟨rfl, hmeans⟩
        rw [List.nil_append, List.cons_append] at ht
        simp only [ht]

end Readers

end TransferLedger.Json
