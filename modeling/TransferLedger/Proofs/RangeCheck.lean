import Mathlib.Tactic
import TransferLedger.Proofs.DigitCount
import TransferLedger.Proofs.SignedNumeral
import TransferLedger.Screening

/-!
# The range check

A quantity is judged by its sign and the number of its digits, so all quantities of one integer are
judged alike, whatever they are made of.

* `Numeric.Measures`: a quantity has the sign and the digits of an integer;
* `Numeric.measures_amount`, `Numeric.measures_native`: amounts and fixed-width integers do;
* `Numeric.Measures.verdict_cases`: the verdict on a quantity, told by its integer;
* `Numeric.range_decided_alike`: what is out of range, and why, for every kind of quantity.
-/

namespace TransferLedger

/-! ### The numeral of an integer -/

/-- The numeral of an amount is the usual one of its integer. -/
theorem Amount.toText_ofInt (v : ℤ) : (ofInt v).toText = (toString v).toList := by
  cases v with
  | ofNat n =>
    refine (toText_ofInt_natCast n).trans ?_
    change Nat.toDigits 10 n = (String.ofList (Nat.toDigits 10 n)).toList
    rw [String.toList_ofList]
  | negSucc n =>
    refine (toText_ofInt_neg n.succ_pos).trans ?_
    change '-' :: Nat.toDigits 10 n.succ =
      ("-" ++ String.ofList (Nat.toDigits 10 n.succ)).toList
    simp

/-- The usual numeral of an integer is read as the amount of the integer. -/
theorem Amount.parse_toString (v : ℤ) : parse (toString v).toList = .ok (ofInt v) := by
  rw [← toText_ofInt, parse_toText]

namespace Numeric

/-! ### Quantities of an integer -/

/-- A quantity has the sign and the number of digits of an integer. -/
structure Measures {α : Type} [Quantity α] (a : α) (v : ℤ) : Prop where
  sign : isNegative a = true ↔ v < 0
  digits : HasDigits v.natAbs (digitCount a)

theorem measures_amount (a : Amount) : Measures a a.toInt where
  sign := a.toInt_neg_iff.symm
  digits := by
    rw [a.natAbs_toInt]
    exact a.hasDigits

/-- A sign bit tells the sign of a word in two's complement. -/
theorem msb_iff_toInt_neg {width : ℕ} (v : BitVec width) : v.msb = true ↔ v.toInt < 0 := by
  rw [BitVec.msb_eq_toInt, decide_eq_true_iff]

theorem measures_native (v : Native) : Measures v v.toInt := by
  have unsigned : ∀ n : ℕ, false = true ↔ (n : ℤ) < 0 := fun n => by simp
  cases v with
  | uint64 v => exact ⟨unsigned v.toNat, hasDigits_countDigits v.toNat⟩
  | uint128 v => exact ⟨unsigned v.toNat, hasDigits_countDigits v.toNat⟩
  | int64 v => exact ⟨msb_iff_toInt_neg v, hasDigits_countDigits v.toInt.natAbs⟩
  | int128 v => exact ⟨msb_iff_toInt_neg v, hasDigits_countDigits v.toInt.natAbs⟩
  | uint256 v => exact ⟨unsigned v.toNat, hasDigits_countWide v.toNat⟩
  | uint512 v => exact ⟨unsigned v.toNat, hasDigits_countWide v.toNat⟩

namespace Measures

variable {α β : Type} [Quantity α] [Quantity β] {a : α} {b : β} {v : ℤ}

/-- A quantity is below zero, in range, or too long, and the verdict says which. -/
theorem verdict_cases (h : Measures a v) :
    (v < 0 ∧ verdict a = some .negative) ∨
    (0 ≤ v ∧ v < 10 ^ 78 ∧ verdict a = none) ∨
    (10 ^ 78 ≤ v ∧ verdict a = some (.precisionExceeded (digitCount a) 78)) := by
  by_cases hv : v < 0
  · refine .inl ⟨hv, ?_⟩
    rw [verdict, if_pos (h.sign.2 hv)]
  · have hsign : ¬isNegative a = true := mt h.sign.1 hv
    have hfits : digitCount a ≤ precision ↔ v.natAbs < 10 ^ precision := h.digits.le_iff (by decide)
    have hpow : v.natAbs < 10 ^ precision ↔ v < 10 ^ 78 := by
      rw [precision]
      omega
    by_cases hlong : precision < digitCount a
    · refine .inr (.inr ⟨?_, ?_⟩)
      · have := mt (hfits.trans hpow).2 (Nat.not_le_of_lt hlong)
        omega
      · rw [verdict, if_neg hsign, if_pos hlong]
        rfl
    · refine .inr (.inl ⟨by omega, (hfits.trans hpow).1 (Nat.le_of_not_lt hlong), ?_⟩)
      rw [verdict, if_neg hsign, if_neg hlong]

theorem verdict_none_iff (h : Measures a v) : verdict a = none ↔ 0 ≤ v ∧ v ≤ 10 ^ 78 - 1 := by
  rcases h.verdict_cases with ⟨hv, h⟩ | ⟨h0, hv, h⟩ | ⟨hv, h⟩ <;> rw [h] <;> simp <;> omega

theorem verdict_negative_iff (h : Measures a v) : verdict a = some .negative ↔ v < 0 := by
  rcases h.verdict_cases with ⟨hv, h⟩ | ⟨h0, hv, h⟩ | ⟨hv, h⟩ <;> rw [h] <;> simp <;> omega

theorem verdict_precisionExceeded_iff (h : Measures a v) (digits max : ℕ) :
    verdict a = some (.precisionExceeded digits max) ↔
      10 ^ 78 ≤ v ∧ HasDigits v.natAbs digits ∧ max = 78 := by
  rcases h.verdict_cases with ⟨hv, hs⟩ | ⟨h0, hv, hs⟩ | ⟨hv, hs⟩ <;> rw [hs]
  · simp
    omega
  · simp
    omega
  · rw [Option.some.injEq, Rejection.precisionExceeded.injEq]
    constructor
    · rintro ⟨rfl, rfl⟩
      exact ⟨hv, h.digits, rfl⟩
    · rintro ⟨-, hdigits, rfl⟩
      exact ⟨h.digits.unique hdigits, rfl⟩

/-- Quantities of one integer are judged alike. -/
theorem verdict_eq (ha : Measures a v) (hb : Measures b v) :
    verdict a = verdict b ∧ digitCount a = digitCount b := by
  have hcount : digitCount a = digitCount b := ha.digits.unique hb.digits
  have hsign : isNegative a = isNegative b := by
    rw [Bool.eq_iff_iff, ha.sign, hb.sign]
  refine ⟨?_, hcount⟩
  rw [verdict, verdict, hsign, hcount]

end Measures

/-! ### The verdicts -/

/-- **The range check decides the range of the column.** An amount is admitted exactly when its
integer is at least zero and has at most 78 digits. Below zero it is rejected for its sign, however
long it is, and otherwise with its number of digits. A fixed-width integer is judged as the amount
that is read from its numeral, with as many digits, and the rule of the column judges as the range
check does. -/
theorem range_decided_alike :
    (∀ a : Amount,
      (verdict a = none ↔ 0 ≤ a.toInt ∧ a.toInt ≤ 10 ^ 78 - 1) ∧
      (verdict a = some .negative ↔ a.toInt < 0) ∧
      (∀ digits max, verdict a = some (.precisionExceeded digits max) ↔
        10 ^ 78 ≤ a.toInt ∧ HasDigits a.toInt.natAbs digits ∧ max = 78) ∧
      (isSupported a = true ↔ 0 ≤ a.toInt ∧ a.toInt ≤ 10 ^ 78 - 1)) ∧
    (∀ v : Native, ∃ a : Amount, Amount.parse (toString v.toInt).toList = .ok a ∧
      a.toInt = v.toInt ∧ verdict v = verdict a ∧ digitCount v = digitCount a) ∧
    (∀ a : Amount, Guard.numeric.verdict a = verdict a) ∧ Guard.numeric.precision = 78 := by
  refine ⟨fun a => ?_, fun v => ?_, fun a => rfl, rfl⟩
  · have h := measures_amount a
    refine ⟨h.verdict_none_iff, h.verdict_negative_iff, h.verdict_precisionExceeded_iff, ?_⟩
    rw [isSupported, Option.isNone_iff_eq_none, h.verdict_none_iff]
  · have hvalue := Amount.toInt_ofInt v.toInt
    have ha := measures_amount (Amount.ofInt v.toInt)
    rw [hvalue] at ha
    exact ⟨_, Amount.parse_toString v.toInt, hvalue, (measures_native v).verdict_eq ha⟩

end Numeric

end TransferLedger
