import Mathlib.Tactic
import TransferLedger.Proofs.Numeral
import TransferLedger.Text.Utf8

/-!
# Signed numerals are read exactly

A signed numeral is one or more digits, with at most one sign in front. These are the texts that are
read as amounts, and an amount is determined by the integer that is written.

* `Decimal.ofNat_value`: canonical digits are the shortest writing of their number;
* `Amount.toInt_injective`, `Amount.toInt_ofInt`: amounts and integers correspond;
* `Amount.Writes`: the signed numerals, with their integers;
* `Amount.StopsAt`: the first character that no numeral goes on with, and its place in bytes;
* `Amount.parse_spec`: what reading any text comes to;
* `Amount.parse_reads_numerals`: what is read, what is refused and why.
-/

namespace TransferLedger

namespace Decimal

/-! ### Canonical digits -/

/-- A digit is the character of its number. -/
theorem digitChar_of_isDigit {c : Char} (hc : c.isDigit = true) :
    Nat.digitChar (c.toNat - '0'.toNat) = c := by
  have hle := digit_le_nine hc
  have hmin : '0'.toNat ≤ c.toNat := by
    simp only [Char.isDigit, Bool.and_eq_true, decide_eq_true_eq] at hc
    exact UInt32.le_iff_toNat_le.1 hc.1
  have hchar : ∀ n ≤ 9, Nat.digitChar n = Char.ofNat (n + '0'.toNat) := by decide
  rw [hchar _ hle, Nat.sub_add_cancel hmin, Char.ofNat_toNat]

/-- A zero in front makes no difference. -/
theorem value_zero_cons (ds : List Char) : value ('0' :: ds) = value ds := by
  rw [value_cons, Nat.sub_self, Nat.zero_mul, Nat.zero_add]

theorem value_dropWhile (ds : List Char) : value (ds.dropWhile (· == '0')) = value ds := by
  induction ds with
  | nil => rfl
  | cons c ds ih =>
    by_cases hc : c = '0'
    · subst hc
      rw [List.dropWhile_cons_of_pos (by rfl), ih, value_zero_cons]
    · rw [List.dropWhile_cons_of_neg (by simpa using hc)]

/-- The canonical writing writes the same number. -/
theorem value_canonical (ds : List Char) : value (canonical ds) = value ds := by
  rw [← value_dropWhile ds, canonical]
  split
  · rename_i h
    rw [h]
    rfl
  · rename_i h
    rw [h]

theorem value_concat (ds : List Char) (c : Char) :
    value (ds ++ [c]) = 10 * value ds + (c.toNat - '0'.toNat) := by
  rw [value, List.foldl_append]
  rfl

/-- Canonical digits without the last one are canonical and write a positive number. -/
theorem IsCanonical.of_concat {ds : List Char} {c : Char} (h : IsCanonical (ds ++ [c]))
    (hne : ds ≠ []) : IsCanonical ds ∧ 0 < value ds := by
  obtain ⟨-, hd, hz⟩ := h
  have hhead : ds.head? ≠ some '0' := by
    intro h0
    have := congrArg List.length (hz (by rw [List.head?_append_of_ne_nil _ hne, h0]))
    simp only [List.length_append, List.length_singleton] at this
    exact hne (List.length_eq_zero_iff.1 (by omega))
  have hcanonical : IsCanonical ds :=
    ⟨hne, fun d hm => hd d (List.mem_append_left _ hm), fun h0 => absurd h0 hhead⟩
  refine ⟨hcanonical, value_pos hcanonical ?_⟩
  rintro rfl
  exact hhead rfl

/-- Canonical digits are the shortest writing of their number. -/
theorem ofNat_value {ds : List Char} (h : IsCanonical ds) : ofNat (value ds) = ds := by
  induction ds using List.reverseRecOn with
  | nil => exact absurd rfl h.1
  | append_singleton ds c ih =>
    have hc := h.2.1 c (by simp)
    have hle := digit_le_nine hc
    have hdigit := digitChar_of_isDigit hc
    rw [ofNat, value_concat, Nat.toDigits_eq_if (by decide)]
    by_cases hne : ds = []
    · subst hne
      have hzero : value [] = 0 := rfl
      rw [hzero, Nat.mul_zero, Nat.zero_add, if_pos (by omega), hdigit]
      rfl
    · -- What stands before the last digit is positive, so the number has more than one digit.
      obtain ⟨hcanonical, hpos⟩ := h.of_concat hne
      rw [if_neg (by omega), ← ofNat,
        show (10 * value ds + (c.toNat - '0'.toNat)) / 10 = value ds by omega,
        show (10 * value ds + (c.toNat - '0'.toNat)) % 10 = c.toNat - '0'.toNat by omega,
        ih hcanonical, hdigit]

end Decimal

namespace Amount

/-! ### Amounts and integers -/

theorem natAbs_toInt (a : Amount) : a.toInt.natAbs = a.magnitude := by
  unfold toInt
  split_ifs <;> simp

theorem toInt_neg_iff (a : Amount) : a.toInt < 0 ↔ a.negative = true := by
  rw [← not_le, toInt_nonneg_iff, Bool.not_eq_false]

/-- The digits of an amount are the shortest writing of its absolute value. -/
theorem digits_eq (a : Amount) : a.digits = Decimal.ofNat a.toInt.natAbs := by
  rw [natAbs_toInt, magnitude, Decimal.ofNat_value a.canonical]

/-- Amounts of one integer are the same. -/
theorem toInt_injective : Function.Injective toInt := by
  intro a b h
  have hdigits : a.digits = b.digits := by rw [digits_eq, digits_eq, h]
  have hnegative : a.negative = b.negative := by
    rw [Bool.eq_iff_iff, ← toInt_neg_iff, ← toInt_neg_iff, h]
  obtain ⟨negative, digits, hc, hz⟩ := a
  obtain ⟨negative', digits', hc', hz'⟩ := b
  dsimp only at hdigits hnegative
  subst hdigits hnegative
  rfl

/-- Zero has no sign, and is its own opposite. -/
theorem toInt_ofCanonical (negative : Bool) {ds : List Char} (h : Decimal.IsCanonical ds) :
    (ofCanonical negative ds h).toInt =
      if negative then -(Decimal.value ds : ℤ) else Decimal.value ds := by
  cases negative with
  | false => rfl
  | true =>
    by_cases hz : ds = ['0']
    · subst hz
      rfl
    · simp [toInt, ofCanonical, magnitude, hz]

theorem toInt_ofDigits (negative : Bool) {ds : List Char} (h : ∀ c ∈ ds, c.isDigit = true) :
    (ofDigits negative ds h).toInt =
      if negative then -(Decimal.value ds : ℤ) else Decimal.value ds := by
  rw [ofDigits, toInt_ofCanonical, Decimal.value_canonical]

theorem toInt_ofInt (v : ℤ) : (ofInt v).toInt = v := by
  rw [ofInt, toInt_ofCanonical, Decimal.value_ofNat]
  simp only [decide_eq_true_eq]
  split_ifs <;> omega

/-! ### Numerals -/

/-- A text is one or more digits, with at most one sign in front, and writes an integer. -/
inductive Writes : List Char → ℤ → Prop
  | bare {ds : List Char} (digits : IsDigits ds) : Writes ds (Decimal.value ds)
  | plus {ds : List Char} (digits : IsDigits ds) : Writes ('+' :: ds) (Decimal.value ds)
  | minus {ds : List Char} (digits : IsDigits ds) : Writes ('-' :: ds) (-Decimal.value ds)

/-- Behind the sign, if there is one, and some digits stands a character that is no digit. It has
this many bytes before it. -/
inductive StopsAt : List Char → ℕ → Char → Prop
  | bare {front behind : List Char} {c : Char} (digits : ∀ d ∈ front, d.isDigit = true)
      (other : c.isDigit = false) (unsigned : front = [] → c ≠ '-' ∧ c ≠ '+') :
      StopsAt (front ++ c :: behind) (Text.Utf8.encode front).length c
  | signed {sign : Char} {front behind : List Char} {c : Char} (is_sign : sign = '-' ∨ sign = '+')
      (digits : ∀ d ∈ front, d.isDigit = true) (other : c.isDigit = false) :
      StopsAt (sign :: front ++ c :: behind) (Text.Utf8.encode (sign :: front)).length c

/-- A text has a sign in front, or it has none. -/
theorem splitSign_cases (s : List Char) :
    (∃ sign body, (sign = '-' ∨ sign = '+') ∧ s = sign :: body) ∨
      ∀ c ∈ s.head?, c ≠ '-' ∧ c ≠ '+' := by
  cases s with
  | nil => exact .inr (by simp)
  | cons c r =>
    by_cases hc : c = '-' ∨ c = '+'
    · exact .inl ⟨c, r, hc, rfl⟩
    · refine .inr ?_
      rintro d ⟨⟩
      exact not_or.1 hc

section Parse

variable {s body front behind : List Char} {sign : Option Char} {c : Char}

/-- The first character that is no digit is refused. -/
theorem parse_of_other (hs : splitSign s = (sign, front ++ c :: behind))
    (hd : ∀ d ∈ front, d.isDigit = true) (hc : c.isDigit = false) :
    parse s = .error (.invalidDigit (sign.toList.length + front.length) c) := by
  have hdrop : (front ++ c :: behind).dropWhile Char.isDigit = c :: behind := by
    rw [List.dropWhile_append_of_pos hd, List.dropWhile_cons_of_neg (by simp [hc])]
  have htake : (front ++ c :: behind).takeWhile Char.isDigit = front := by
    rw [List.takeWhile_append_of_pos hd, List.takeWhile_cons_of_neg (by simp [hc]),
      List.append_nil]
  have hne : (front ++ c :: behind).isEmpty = false := by simp
  simp only [parse, hs, hne, htake, Bool.false_eq_true, if_false]
  split
  · rename_i heq
    simp only [hs, hdrop] at heq
    cases heq
  · rename_i heq
    simp only [hs, hdrop] at heq
    obtain ⟨rfl, -⟩ := List.cons.inj heq
    rfl

/-- A body has no digits, only digits, or a first character that is none. -/
theorem body_cases (body : List Char) :
    body = [] ∨ IsDigits body ∨ ∃ front c behind, body = front ++ c :: behind ∧
      (∀ d ∈ front, d.isDigit = true) ∧ c.isDigit = false := by
  cases h : body.dropWhile Char.isDigit with
  | nil =>
    by_cases hne : body = []
    · exact .inl hne
    · exact .inr (.inl ⟨hne, List.dropWhile_eq_nil_iff.1 h⟩)
  | cons c behind =>
    refine .inr (.inr ⟨body.takeWhile Char.isDigit, c, behind, ?_, ?_, ?_⟩)
    · rw [← h, List.takeWhile_append_dropWhile]
    · exact fun d hd => List.mem_takeWhile_imp hd
    · simpa [h] using List.head?_dropWhile_not Char.isDigit body

end Parse

/-- Signs and digits are one byte each. -/
theorem length_utf8EncodeChar_of_isDigit {c : Char} (hc : c.isDigit = true) :
    (String.utf8EncodeChar c).length = 1 := by
  rw [← Decimal.digitChar_of_isDigit hc]
  have hlength : ∀ n ≤ 9, (String.utf8EncodeChar (Nat.digitChar n)).length = 1 := by decide
  exact hlength _ (Decimal.digit_le_nine hc)

theorem length_encode_of_digits {ds : List Char} (h : ∀ c ∈ ds, c.isDigit = true) :
    (Text.Utf8.encode ds).length = ds.length := by
  induction ds with
  | nil => rfl
  | cons c ds ih =>
    obtain ⟨hc, hds⟩ := List.forall_mem_cons.1 h
    rw [Text.Utf8.encode, List.flatMap_cons, ← Text.Utf8.encode, List.length_append,
      length_utf8EncodeChar_of_isDigit hc, ih hds, List.length_cons, Nat.add_comm]

theorem length_encode_of_sign {sign : Char} (h : sign = '-' ∨ sign = '+') (ds : List Char) :
    (Text.Utf8.encode (sign :: ds)).length = 1 + (Text.Utf8.encode ds).length := by
  rw [Text.Utf8.encode, List.flatMap_cons, ← Text.Utf8.encode, List.length_append]
  rcases h with rfl | rfl <;> rfl

/-! ### What reading comes to -/

/-- A signed numeral is read as the amount of its integer. -/
theorem parse_of_writes {s : List Char} {v : ℤ} (h : Writes s v) :
    ∃ a : Amount, parse s = .ok a ∧ a.toInt = v := by
  cases h with
  | bare digits =>
    exact ⟨_, parse_of_digits (splitSign_of_isDigits digits) digits, toInt_ofDigits _ digits.2⟩
  | plus digits =>
    exact ⟨_, parse_of_digits (splitSign_of_sign (.inr rfl) _) digits, toInt_ofDigits _ digits.2⟩
  | minus digits =>
    exact ⟨_, parse_of_digits (splitSign_of_sign (.inl rfl) _) digits, toInt_ofDigits _ digits.2⟩

/-- A text that no numeral goes on with is refused there. -/
theorem parse_of_stopsAt {s : List Char} {position : ℕ} {c : Char} (h : StopsAt s position c) :
    parse s = .error (.invalidDigit position c) := by
  cases h with
  | @bare front behind _ digits other unsigned =>
    have hs : splitSign (front ++ c :: behind) = (none, front ++ c :: behind) := by
      cases front with
      | nil =>
        refine splitSign_of_bare ?_
        rintro d ⟨⟩
        exact unsigned rfl
      | cons d front => exact splitSign_of_digit (digits d List.mem_cons_self) _
    rw [parse_of_other hs digits other, length_encode_of_digits digits, Option.toList_none,
      List.length_nil, Nat.zero_add]
  | @signed sign front behind _ is_sign digits other =>
    rw [List.cons_append, parse_of_other (splitSign_of_sign is_sign _) digits other,
      length_encode_of_sign is_sign, length_encode_of_digits digits, Option.toList_some,
      List.length_singleton]

/-- A sign alone has nothing to read. -/
theorem parse_of_no_body {s : List Char} (h : s = [] ∨ s = ['+'] ∨ s = ['-']) :
    parse s = .error .empty := by
  rcases h with rfl | rfl | rfl <;> rfl

/-- Every text is a numeral, has no body, or stops being a numeral at some character. -/
theorem writes_or_stopsAt (s : List Char) :
    (∃ v, Writes s v) ∨ (s = [] ∨ s = ['+'] ∨ s = ['-']) ∨ ∃ position c, StopsAt s position c := by
  rcases splitSign_cases s with ⟨sign, body, h, rfl⟩ | h
  · rcases body_cases body with rfl | hd | ⟨front, c, behind, rfl, hd, hc⟩
    · rcases h with rfl | rfl
      · exact .inr (.inl (.inr (.inr rfl)))
      · exact .inr (.inl (.inr (.inl rfl)))
    · rcases h with rfl | rfl
      · exact .inl ⟨_, .minus hd⟩
      · exact .inl ⟨_, .plus hd⟩
    · exact .inr (.inr ⟨_, c, .signed h hd hc⟩)
  · rcases body_cases s with rfl | hd | ⟨front, c, behind, rfl, hd, hc⟩
    · exact .inr (.inl (.inl rfl))
    · exact .inl ⟨_, .bare hd⟩
    · refine .inr (.inr ⟨_, c, .bare hd hc ?_⟩)
      rintro rfl
      exact h c rfl

/-- What reading comes to tells which of the three a text is. -/
theorem parse_spec (s : List Char) :
    (∃ a, parse s = .ok a ∧ Writes s a.toInt) ∨
    (parse s = .error .empty ∧ (s = [] ∨ s = ['+'] ∨ s = ['-'])) ∨
    ∃ position c, parse s = .error (.invalidDigit position c) ∧ StopsAt s position c := by
  rcases writes_or_stopsAt s with ⟨v, hv⟩ | hempty | ⟨position, c, hstop⟩
  · obtain ⟨a, ha, rfl⟩ := parse_of_writes hv
    exact .inl ⟨a, ha, hv⟩
  · exact .inr (.inl ⟨parse_of_no_body hempty, hempty⟩)
  · exact .inr (.inr ⟨position, c, parse_of_stopsAt hstop, hstop⟩)

/-- What an amount is read from writes its integer. -/
theorem writes_of_parse {s : List Char} {a : Amount} (h : parse s = .ok a) : Writes s a.toInt := by
  rcases parse_spec s with ⟨b, hb, hwrites⟩ | ⟨hb, -⟩ | ⟨_, _, hb, -⟩ <;> rw [h] at hb
  · rwa [Except.ok.inj hb]
  · cases hb
  · cases hb

theorem no_body_of_parse {s : List Char} (h : parse s = .error .empty) :
    s = [] ∨ s = ['+'] ∨ s = ['-'] := by
  rcases parse_spec s with ⟨_, hs, -⟩ | ⟨-, hempty⟩ | ⟨_, _, hs, -⟩
  · rw [h] at hs
    cases hs
  · exact hempty
  · rw [h] at hs
    cases hs

theorem stopsAt_of_parse {s : List Char} {position : ℕ} {c : Char}
    (h : parse s = .error (.invalidDigit position c)) : StopsAt s position c := by
  rcases parse_spec s with ⟨_, hs, -⟩ | ⟨hs, -⟩ | ⟨_, _, hs, hstop⟩ <;> rw [h] at hs
  · cases hs
  · cases hs
  · cases hs
    exact hstop

/-- **Signed numerals.** A text is read as an amount exactly when it is a signed numeral, and the
amount is the one of the integer written. The refusals name what is wrong: a missing body, or the
first character behind the sign that is no digit, with its place in bytes. The digits of an amount
are the shortest writing of its absolute value, its sign is the one of its integer, and its own
numeral reads back. -/
theorem parse_reads_numerals (s : List Char) :
    ((∃ a, parse s = .ok a) ↔ ∃ v, Writes s v) ∧
    (∀ a, parse s = .ok a ↔ Writes s a.toInt) ∧
    (parse s = .error .empty ↔ s = [] ∨ s = ['+'] ∨ s = ['-']) ∧
    (∀ position c, parse s = .error (.invalidDigit position c) ↔ StopsAt s position c) ∧
    (∀ a, parse s = .ok a → ∀ s' b, parse s' = .ok b → (a = b ↔ a.toInt = b.toInt)) ∧
    ∀ a : Amount, a.digits = Nat.toDigits 10 a.toInt.natAbs ∧
      (a.digits.head? = some '0' ↔ a.digits = ['0']) ∧ (a.negative = true ↔ a.toInt < 0) ∧
      parse a.toText = .ok a := by
  refine ⟨⟨?_, ?_⟩, fun a => ⟨writes_of_parse, fun h => ?_⟩, ⟨no_body_of_parse, parse_of_no_body⟩,
    fun position c => ⟨stopsAt_of_parse, parse_of_stopsAt⟩,
    fun a _ s' b _ => ⟨congrArg toInt, fun h => toInt_injective h⟩,
    fun a => ⟨a.digits_eq, ⟨a.canonical.2.2, fun h => by rw [h]; rfl⟩, a.toInt_neg_iff.symm,
      a.parse_toText⟩⟩
  · rintro ⟨a, h⟩
    exact ⟨_, writes_of_parse h⟩
  · rintro ⟨v, h⟩
    obtain ⟨a, ha, -⟩ := parse_of_writes h
    exact ⟨a, ha⟩
  · obtain ⟨b, hb, hv⟩ := parse_of_writes h
    rw [hb, toInt_injective hv]

example : parse "-00120".toList = .ok (ofInt (-120)) := by decide +kernel

example : parse "+1é2".toList = .error (.invalidDigit 2 'é') := by decide +kernel

end Amount

end TransferLedger
