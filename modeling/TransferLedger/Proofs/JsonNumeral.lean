import Mathlib.Tactic
import TransferLedger.Proofs.JsonText

/-!
# Which numerals are read

A numeral is an integer with a minus sign in front or none, and behind it a fraction and an
exponent, either of which may be left out. Whatever its size, it is passed over. It is read as a
natural number when it has none of these parts and takes 64 bits at most.

* `Json.IsNumeral`: the numerals;
* `Json.skipNumber_of_isNumeral`: a numeral is passed over;
* `Json.readNumber_eq_natural_iff`: the numerals that are read as natural numbers.
-/

namespace TransferLedger.Json

open Amount (IsDigits)

/-! ### The parts of a numeral -/

/-- Nothing, or digits behind a point. -/
inductive IsFraction : List Char → Prop
  | absent : IsFraction []
  | digits {ds : List Char} (h : IsDigits ds) : IsFraction ('.' :: ds)

/-- Nothing, or digits with or without a sign behind a letter. -/
inductive IsExponent : List Char → Prop
  | absent : IsExponent []
  | digits {e : Char} {sign ds : List Char} (letter : e = 'e' ∨ e = 'E')
      (signs : sign = [] ∨ sign = ['+'] ∨ sign = ['-']) (h : IsDigits ds) :
      IsExponent (e :: (sign ++ ds))

/-- An integer without needless zeros, with a minus sign or none, and the two further parts. -/
inductive IsNumeral : List Char → Prop
  | intro {sign ds f x : List Char} (signs : sign = [] ∨ sign = ['-'])
      (integer : Decimal.IsCanonical ds) (fraction : IsFraction f) (exponent : IsExponent x) :
      IsNumeral (sign ++ (ds ++ (f ++ x)))

/-- Digits without a needless zero are a numeral. -/
theorem isNumeral_of_isCanonical {ds : List Char} (h : Decimal.IsCanonical ds) : IsNumeral ds := by
  have := IsNumeral.intro (.inl rfl) h .absent .absent
  simpa using this

/-- A numeral opens with a minus sign or a digit. -/
theorem IsNumeral.exists_cons {s : List Char} (h : IsNumeral s) :
    ∃ c t, s = c :: t ∧ (c = '-' ∨ c.isDigit = true) := by
  obtain ⟨rfl | rfl, integer, -, -⟩ := h
  · obtain ⟨c, t, rfl⟩ := List.exists_cons_of_ne_nil integer.1
    exact ⟨c, _, rfl, .inr (integer.2.1 c List.mem_cons_self)⟩
  · exact ⟨'-', _, rfl, .inl rfl⟩

section Parts

variable {f x r : List Char}

/-- Behind an integer and its fraction there is neither a digit nor a point. -/
theorem IsExponent.head_append (h : IsExponent x) (hr : IsBehindValue r) :
    ∀ c ∈ (x ++ r).head?, c.isDigit = false ∧ c ≠ '.' := by
  obtain _ | ⟨rfl | rfl, -, -⟩ := h
  · exact fun c hc => ⟨(hr c hc).1, (hr c hc).2.1⟩
  all_goals
    rintro c ⟨⟩
    decide

/-- Behind an integer there is no digit. -/
theorem IsFraction.head_append (h : IsFraction f) (hr : ∀ c ∈ r.head?, c.isDigit = false) :
    ∀ c ∈ (f ++ r).head?, c.isDigit = false := by
  obtain _ | _ := h
  · exact hr
  · rintro c ⟨⟩
    decide

/-- A fraction is read, and it is read as nothing only where there is none. -/
theorem IsFraction.read_append (h : IsFraction f)
    (hr : ∀ c ∈ r.head?, c.isDigit = false ∧ c ≠ '.') :
    ∃ o, readFraction (f ++ r) = .ok (o, r) ∧ (o = none → f = []) := by
  cases h with
  | absent => exact ⟨_, readFraction_none fun c hc => (hr c hc).2, fun _ => rfl⟩
  | @digits ds h =>
    have hread := readDigits_append h fun c hc => (hr c hc).1
    refine ⟨some ds, ?_, nofun⟩
    simp [readFraction, hread, bind, Except.bind, pure, Except.pure]

/-- A sign or none in front of digits is split from them. -/
theorem splitSign_append {sign ds : List Char} (signs : sign = [] ∨ sign = ['+'] ∨ sign = ['-'])
    (h : IsDigits ds) (r : List Char) :
    splitSign (sign ++ (ds ++ r)) = (sign == ['-'], ds ++ r) := by
  rcases signs with rfl | rfl | rfl
  · obtain ⟨d, ds, rfl⟩ := List.exists_cons_of_ne_nil h.1
    obtain ⟨hminus, hplus⟩ := Decimal.digit_ne_sign (h.2 d List.mem_cons_self)
    simp [splitSign, hminus, hplus]
  · rfl
  · rfl

/-- An exponent is read, and it is read as nothing only where there is none. -/
theorem IsExponent.read_append (h : IsExponent x) (hr : IsBehindValue r) :
    ∃ o, readExponent (x ++ r) = .ok (o, r) ∧ (o = none → x = []) := by
  cases h with
  | absent => exact ⟨_, hr.readExponent, fun _ => rfl⟩
  | @digits e sign ds letter signs h =>
    have hread := readDigits_append h hr.not_digit
    refine ⟨some (if sign == ['-'] then -(Decimal.value ds : ℤ) else Decimal.value ds), ?_, nofun⟩
    rw [List.cons_append, List.append_assoc, readExponent, if_pos letter, splitSign_append signs h]
    simp [hread, bind, Except.bind, pure, Except.pure]

end Parts

/-! ### Whole numerals -/

/-- What reading a numeral and passing over it come to. -/
theorem readNumber_append {sign ds f x r : List Char} (signs : sign = [] ∨ sign = ['-'])
    (integer : Decimal.IsCanonical ds) (fraction : IsFraction f) (exponent : IsExponent x)
    (hr : IsBehindValue r) :
    ∃ fo xo, (fo = none → f = []) ∧ (xo = none → x = []) ∧
      readNumber (sign ++ (ds ++ (f ++ x)) ++ r) =
        (numberOf (sign == ['-']) ds fo xo).map (·, r) ∧
      skipNumber (sign ++ (ds ++ (f ++ x)) ++ r) = .ok r := by
  obtain ⟨xo, hexponent, hx⟩ := exponent.read_append hr
  have hbehind := exponent.head_append hr
  obtain ⟨fo, hfraction, hf⟩ := fraction.read_append hbehind
  have hinteger := readInteger_append integer
    (fraction.head_append fun c hc => (hbehind c hc).1)
  refine ⟨fo, xo, hf, hx, ?_⟩
  simp only [List.append_assoc]
  cases hnumber : numberOf (sign == ['-']) ds fo xo with
  | error | ok =>
    rcases signs with rfl | rfl
    · obtain ⟨d, ds, rfl⟩ := List.exists_cons_of_ne_nil integer.1
      have hd := (Decimal.digit_ne_sign (integer.2.1 d List.mem_cons_self)).1
      simp only [List.cons_append] at hinteger
      have hbare : (([] : List Char) == ['-']) = false := rfl
      rw [hbare] at hnumber
      constructor <;>
        simp [readNumber, skipNumber, hd, hinteger, hfraction, hexponent, hnumber, bind,
          Except.bind, pure, Except.pure, Except.map]
    · rw [beq_self_eq_true] at hnumber
      constructor <;>
        simp [readNumber, skipNumber, hinteger, hfraction, hexponent, hnumber, bind, Except.bind,
          pure, Except.pure, Except.map]

/-- A numeral is passed over. -/
theorem skipNumber_of_isNumeral {s r : List Char} (h : IsNumeral s) (hr : IsBehindValue r) :
    skipNumber (s ++ r) = .ok r := by
  obtain ⟨signs, integer, fraction, exponent⟩ := h
  obtain ⟨_, _, -, -, -, hskip⟩ := readNumber_append signs integer fraction exponent hr
  exact hskip

/-! ### Natural numbers -/

theorem full_foldl_pushInteger {m : Magnitude} (h : m.full = true) (ds : List Char) :
    (ds.foldl Magnitude.pushInteger m).full = true := by
  induction ds generalizing m with
  | nil => exact h
  | cons c ds ih => exact ih (by simp [Magnitude.pushInteger, h])

/-- Digits that all fit into the significand take 64 bits at most. -/
theorem foldl_push_lt {n : ℕ} (hn : n < Decimal.wordBound) {ds : List Char}
    (h : (ds.foldl Magnitude.pushInteger ⟨n, 0, false⟩).full = false) :
    ds.foldl Decimal.push n < Decimal.wordBound := by
  induction ds generalizing n with
  | nil => exact hn
  | cons c ds ih =>
    by_cases hc : Decimal.wordBound ≤ Decimal.push n c
    · have hfull : (Magnitude.pushInteger ⟨n, 0, false⟩ c).full = true := by
        simp [Magnitude.pushInteger, hc]
      rw [List.foldl_cons, full_foldl_pushInteger hfull] at h
      cases h
    · have hpush : Magnitude.pushInteger ⟨n, 0, false⟩ c = ⟨Decimal.push n c, 0, false⟩ := by
        simp [Magnitude.pushInteger, hc]
      rw [List.foldl_cons, hpush] at h
      exact ih (Nat.not_le.1 hc) h

/-- The parts of a numeral denote a natural number only when there are digits alone. -/
theorem of_numberOf_eq_natural {negative : Bool} {ds : List Char} {fo : Option (List Char)}
    {xo : Option ℤ} {n : ℕ} (h : numberOf negative ds fo xo = .ok (.natural n)) :
    negative = false ∧ fo = none ∧ xo = none ∧ Decimal.value ds = n ∧ n < Decimal.wordBound := by
  unfold numberOf at h
  dsimp only at h
  split_ifs at h with hfinite hfloating hsign hrange
  · cases h
  · simp only [Bool.not_eq_true, Bool.or_eq_false_iff, Option.isSome_eq_false_iff,
      Option.isNone_iff_eq_none] at hfloating
    obtain ⟨⟨hfo, hxo⟩, hfull⟩ := hfloating
    have hlt : Decimal.value ds < Decimal.wordBound := foldl_push_lt (by decide) hfull
    have hwhole : ds.foldl Magnitude.pushInteger {} = ⟨Decimal.value ds, 0, false⟩ :=
      foldl_pushInteger 0 hlt
    rw [hwhole] at h
    obtain rfl : Decimal.value ds = n := Number.natural.inj (Except.ok.inj h)
    exact ⟨by simpa using hsign, hfo, hxo, rfl, hlt⟩
  · cases h
  · cases h

/-- The numerals that are read as natural numbers are digits without a needless zero, whose number
takes 64 bits at most. -/
theorem readNumber_eq_natural_iff {s r r' : List Char} {n : ℕ} (h : IsNumeral s)
    (hr : IsBehindValue r) :
    readNumber (s ++ r) = .ok (.natural n, r') ↔
      r' = r ∧ Decimal.IsCanonical s ∧ Decimal.value s = n ∧ n < Decimal.wordBound := by
  constructor
  · intro hread
    obtain @⟨sign, ds, f, x, signs, integer, fraction, exponent⟩ := h
    obtain ⟨fo, xo, hf, hx, hnumber, -⟩ := readNumber_append signs integer fraction exponent hr
    rw [hread] at hnumber
    cases hparts : numberOf (sign == ['-']) ds fo xo with
    | error f =>
      rw [hparts] at hnumber
      cases hnumber
    | ok m =>
      rw [hparts] at hnumber
      obtain ⟨rfl, rfl⟩ := Prod.mk.inj (Except.ok.inj hnumber)
      obtain ⟨hsign, rfl, rfl, hvalue, hlt⟩ := of_numberOf_eq_natural hparts
      obtain rfl : sign = [] := signs.resolve_right fun h => by simp [h] at hsign
      rw [hf rfl, hx rfl, List.nil_append, List.append_nil, List.append_nil]
      exact ⟨rfl, integer, hvalue, hlt⟩
  · rintro ⟨rfl, hcanonical, rfl, hlt⟩
    exact readNumber_digits hcanonical hlt hr

end TransferLedger.Json
