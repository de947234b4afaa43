import Mathlib.Data.List.TakeWhile
import Mathlib.Tactic
import TransferLedger.Amount

/-!
# Numerals and the integers they denote

A canonical numeral of `n` digits denotes an integer between `10 ^ (n - 1)` and `10 ^ n`, zero
apart, so the number of digits decides whether an amount is below a power of ten.

* `Decimal.value_lt_pow_iff`: the bound for canonical digits;
* `Amount.toInt_nonneg_iff`, `Amount.toInt_lt_pow_iff`: sign and size of an amount, read off its
  numeral;
* `Amount.parse_toText`: the numeral of an amount reads back as the amount.
-/

namespace TransferLedger

namespace Decimal

/-- The number that one digit writes. -/
theorem digit_le_nine {c : Char} (hc : c.isDigit = true) : c.toNat - '0'.toNat ≤ 9 := by
  simp only [Char.isDigit, Bool.and_eq_true, decide_eq_true_eq] at hc
  have h : c.toNat ≤ '9'.toNat := UInt32.le_iff_toNat_le.1 hc.2
  change c.toNat ≤ 57 at h
  change c.toNat - 48 ≤ 9
  omega

/-- A digit other than zero writes a positive number. -/
theorem digit_pos {c : Char} (hc : c.isDigit = true) (h0 : c ≠ '0') :
    1 ≤ c.toNat - '0'.toNat := by
  simp only [Char.isDigit, Bool.and_eq_true, decide_eq_true_eq] at hc
  have h : '0'.toNat ≤ c.toNat := UInt32.le_iff_toNat_le.1 hc.1
  have hne : c.toNat ≠ '0'.toNat := fun he => h0 (Char.ext (UInt32.toNat_inj.1 he))
  omega

/-- Digits behind a number move it up by their count. -/
theorem foldl_push (n : ℕ) (ds : List Char) :
    ds.foldl push n = n * 10 ^ ds.length + value ds := by
  induction ds generalizing n with
  | nil => simp [value]
  | cons c ds ih =>
    rw [value, List.foldl_cons, List.foldl_cons, ih, ih (push 0 c), push, push,
      List.length_cons, pow_succ]
    ring

theorem value_cons (c : Char) (ds : List Char) :
    value (c :: ds) = (c.toNat - '0'.toNat) * 10 ^ ds.length + value ds := by
  rw [value, List.foldl_cons, foldl_push, push, Nat.mul_zero, Nat.zero_add]

theorem value_lt_pow {ds : List Char} (h : ∀ c ∈ ds, c.isDigit = true) :
    value ds < 10 ^ ds.length := by
  induction ds with
  | nil => simp [value]
  | cons c ds ih =>
    have hc := digit_le_nine (h c List.mem_cons_self)
    have hds := ih fun d hd => h d (List.mem_cons_of_mem c hd)
    rw [value_cons, List.length_cons, pow_succ]
    nlinarith [Nat.mul_le_mul_right (10 ^ ds.length) hc]

/-- Digits that open with no zero write a number of their full length. -/
theorem pow_le_value {c : Char} {ds : List Char} (hc : c.isDigit = true) (h0 : c ≠ '0') :
    10 ^ ds.length ≤ value (c :: ds) := by
  rw [value_cons]
  have := Nat.mul_le_mul_right (10 ^ ds.length) (digit_pos hc h0)
  omega

/-- The length of canonical digits decides whether their number is below a power of ten. -/
theorem value_lt_pow_iff {ds : List Char} (h : IsCanonical ds) {n : ℕ} (hn : 0 < n) :
    value ds < 10 ^ n ↔ ds.length ≤ n := by
  obtain ⟨hne, hd, hz⟩ := h
  constructor
  · intro hlt
    obtain ⟨c, r, rfl⟩ := List.exists_cons_of_ne_nil hne
    by_cases hc : c = '0'
    · subst hc
      rw [hz rfl]
      exact hn
    · have hle : 10 ^ r.length ≤ value (c :: r) := pow_le_value (hd c List.mem_cons_self) hc
      have : r.length < n := (Nat.pow_lt_pow_iff_right (by norm_num)).1 (hle.trans_lt hlt)
      rw [List.length_cons]
      omega
  · intro hle
    exact (value_lt_pow hd).trans_le (Nat.pow_le_pow_right (by norm_num) hle)

/-- Canonical digits write zero in one way only. -/
theorem value_pos {ds : List Char} (h : IsCanonical ds) (h0 : ds ≠ ['0']) : 0 < value ds := by
  obtain ⟨hne, hd, hz⟩ := h
  obtain ⟨c, r, rfl⟩ := List.exists_cons_of_ne_nil hne
  have hc : c ≠ '0' := fun hc => h0 (hz (by rw [hc]; rfl))
  exact (Nat.pow_pos (by norm_num)).trans_le (pow_le_value (hd c List.mem_cons_self) hc)

/-- The shortest writing of a number writes the number. -/
theorem value_ofNat (n : ℕ) : value (ofNat n) = n := by
  have hdigit : ∀ k < 10, (Nat.digitChar k).toNat - '0'.toNat = k := by decide
  induction n using Nat.strongRecOn with
  | ind n ih =>
    rw [ofNat, Nat.toDigits_eq_if (by decide)]
    split_ifs with h
    · show 10 * 0 + _ = n
      rw [hdigit n h, Nat.mul_zero, Nat.zero_add]
    · have := ih (n / 10) (by omega)
      rw [value, List.foldl_append, ← value, ← ofNat, this]
      show 10 * (n / 10) + _ = n
      rw [hdigit _ (Nat.mod_lt n (by norm_num))]
      omega

/-- A digit is no sign. -/
theorem digit_ne_sign {c : Char} (hc : c.isDigit = true) : c ≠ '-' ∧ c ≠ '+' := by
  constructor <;> rintro rfl <;> exact absurd hc (by decide)

end Decimal

namespace Amount

/-! ### Sign and body -/

/-- One or more digits. -/
def IsDigits (ds : List Char) : Prop := ds ≠ [] ∧ ∀ c ∈ ds, c.isDigit = true

/-- A text without a sign in front is all body. -/
theorem splitSign_of_bare {s : List Char} (h : ∀ c ∈ s.head?, c ≠ '-' ∧ c ≠ '+') :
    splitSign s = (none, s) := by
  unfold splitSign
  split
  · exact absurd rfl (h _ rfl).1
  · exact absurd rfl (h _ rfl).2
  · rfl

theorem splitSign_of_sign {sign : Char} (h : sign = '-' ∨ sign = '+') (s : List Char) :
    splitSign (sign :: s) = (some sign, s) := by
  rcases h with rfl | rfl <;> rfl

theorem splitSign_of_digit {c : Char} (hc : c.isDigit = true) (s : List Char) :
    splitSign (c :: s) = (none, c :: s) := by
  refine splitSign_of_bare ?_
  rintro d ⟨⟩
  exact Decimal.digit_ne_sign hc

theorem splitSign_of_isDigits {ds : List Char} (h : IsDigits ds) : splitSign ds = (none, ds) := by
  obtain ⟨c, r, rfl⟩ := List.exists_cons_of_ne_nil h.1
  exact splitSign_of_digit (h.2 c List.mem_cons_self) r

/-- A body of digits is read, whatever the sign. -/
theorem parse_of_digits {s body : List Char} {sign : Option Char}
    (hs : splitSign s = (sign, body)) (h : IsDigits body) :
    parse s = .ok (ofDigits (sign == some '-') body h.2) := by
  have hdrop : body.dropWhile Char.isDigit = [] := List.dropWhile_eq_nil_iff.2 h.2
  simp only [parse, hs, List.isEmpty_iff, h.1, if_false]
  split
  · rfl
  · rename_i heq
    simp only [hs, hdrop] at heq
    cases heq

/-! ### The numeral of an amount -/

variable (a : Amount)

theorem isDigit_of_mem {c : Char} (hc : c ∈ a.digits) : c.isDigit = true := a.canonical.2.1 c hc

/-- An amount with a sign is below zero. -/
theorem toInt_nonneg_iff : 0 ≤ a.toInt ↔ a.negative = false := by
  cases hn : a.negative with
  | false => simp [toInt, hn]
  | true =>
    have h0 : a.digits ≠ ['0'] := fun h => by simp [a.unsigned_zero h] at hn
    have hpos : 0 < a.magnitude := Decimal.value_pos a.canonical h0
    simp only [toInt, hn, if_true, Bool.true_eq_false, iff_false]
    omega

/-- An amount without a sign is below a power of ten when it has no more digits. -/
theorem toInt_lt_pow_iff (h : a.negative = false) {n : ℕ} (hn : 0 < n) :
    a.toInt < 10 ^ n ↔ a.digitCount ≤ n := by
  rw [digitCount, ← Decimal.value_lt_pow_iff a.canonical hn, toInt, h]
  simp only [Bool.false_eq_true, if_false, magnitude]
  exact_mod_cast Iff.rfl

/-- The numeral of an amount without a sign opens with a digit. -/
theorem splitSign_digits : splitSign a.digits = (none, a.digits) :=
  splitSign_of_isDigits ⟨a.canonical.1, a.canonical.2.1⟩

/-- The numeral of a natural number. -/
theorem toText_ofInt_natCast (n : ℕ) : (ofInt n).toText = Decimal.ofNat n := by
  have : ¬(n : ℤ) < 0 := by omega
  simp [ofInt, ofCanonical, toText, this]

/-- The numeral of a negative integer. -/
theorem toText_ofInt_neg {n : ℕ} (hn : 0 < n) : (ofInt (-n)).toText = '-' :: Decimal.ofNat n := by
  have hzero : Decimal.ofNat n ≠ ['0'] := by
    intro h
    have := Decimal.value_ofNat n
    rw [h] at this
    change 0 = n at this
    omega
  simp [ofInt, ofCanonical, toText, hn.ne', hzero]

/-- Reading canonical digits leaves them as they are. -/
theorem ofDigits_digits (negative : Bool) :
    ofDigits negative a.digits a.canonical.2.1 =
      ofCanonical negative a.digits a.canonical := by
  simp only [ofDigits, ofCanonical, Decimal.canonical_eq_self a.canonical]

theorem ofCanonical_self : ofCanonical a.negative a.digits a.canonical = a := by
  rcases a with ⟨negative, digits, hc, hz⟩
  simp only [ofCanonical, Amount.mk.injEq, and_true]
  cases negative with
  | false => rfl
  | true =>
    have : digits ≠ ['0'] := fun h => by simp at hz; exact hz h
    simpa using this

/-- The numeral of an amount reads back as the amount. -/
theorem parse_toText : parse a.toText = .ok a := by
  have hdigits : IsDigits a.digits := ⟨a.canonical.1, a.canonical.2.1⟩
  have hself : ofDigits a.negative a.digits a.canonical.2.1 = a := by
    rw [ofDigits_digits, ofCanonical_self]
  cases hn : a.negative with
  | false =>
    rw [toText, hn, if_neg Bool.false_ne_true, parse_of_digits a.splitSign_digits hdigits]
    rw [hn] at hself
    exact congrArg Except.ok hself
  | true =>
    rw [toText, hn, if_pos rfl, parse_of_digits (splitSign_of_sign (.inl rfl) _) hdigits]
    rw [hn] at hself
    exact congrArg Except.ok hself

end Amount

end TransferLedger
