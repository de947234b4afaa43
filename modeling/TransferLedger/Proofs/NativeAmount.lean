import Mathlib.Tactic
import TransferLedger.Proofs.RangeCheck

/-!
# Amounts of native integers

An integer of a fixed width, its numeral and its amount stand for the same number. Words in two's
complement are taken apart into a sign and an absolute value, which for the least of them is one that
the signed words of its width do not reach.

* `Numeric.Native.magnitude`: the absolute value of a word;
* `Numeric.Native.toAmount_eq`: the amount of a word, from its sign and its absolute value;
* `Amount.padded`: the numeral of an integer with more zeros in front of its digits;
* `Amount.uint256?_eq_some_iff`, `Amount.uint256?_eq_none_iff`: the amounts that are words of 256 bits;
* `Numeric.natives_have_their_amounts`: words, numerals and amounts agree.
-/

namespace TransferLedger

/-! ### Numerals with zeros in front -/

/-- However many zeros stand in front, the number is the same. -/
theorem Decimal.value_replicate_append (zeros : ℕ) (ds : List Char) :
    value (List.replicate zeros '0' ++ ds) = value ds := by
  induction zeros with
  | zero => rfl
  | succ zeros ih => rw [List.replicate_succ, List.cons_append, value_zero_cons, ih]

namespace Amount

/-- The numeral of an integer, with some zeros between its sign and its digits. -/
def padded (zeros : ℕ) (v : ℤ) : List Char :=
  (if v < 0 then ['-'] else []) ++ (List.replicate zeros '0' ++ Nat.toDigits 10 v.natAbs)

/-- Without more zeros this is the usual numeral. -/
theorem padded_zero (v : ℤ) : padded 0 v = (toString v).toList := by
  rw [← toText_ofInt]
  obtain ⟨n, rfl | rfl⟩ := v.eq_nat_or_neg
  · rw [toText_ofInt_natCast, padded, if_neg (by omega), Int.natAbs_natCast]
    rfl
  · obtain rfl | hn := Nat.eq_zero_or_pos n
    · rfl
    · rw [toText_ofInt_neg hn, padded, if_pos (by omega), Int.natAbs_neg, Int.natAbs_natCast]
      rfl

theorem isDigits_padded (zeros n : ℕ) :
    IsDigits (List.replicate zeros '0' ++ Nat.toDigits 10 n) := by
  refine ⟨by simp [Nat.toDigits_ne_nil], fun c hc => ?_⟩
  rcases List.mem_append.1 hc with hc | hc
  · rw [List.eq_of_mem_replicate hc]
    rfl
  · exact (Decimal.isCanonical_ofNat n).2.1 c hc

theorem writes_padded (zeros : ℕ) (v : ℤ) : Writes (padded zeros v) v := by
  have hdigits := isDigits_padded zeros v.natAbs
  have hvalue : Decimal.value (List.replicate zeros '0' ++ Nat.toDigits 10 v.natAbs) = v.natAbs := by
    rw [Decimal.value_replicate_append, ← Decimal.ofNat, Decimal.value_ofNat]
  by_cases hv : v < 0
  · have hwrites := Writes.minus hdigits
    rw [hvalue, show -(v.natAbs : ℤ) = v by omega] at hwrites
    rwa [padded, if_pos hv]
  · have hwrites := Writes.bare hdigits
    rw [hvalue, show (v.natAbs : ℤ) = v by omega] at hwrites
    rwa [padded, if_neg hv]

/-- A numeral is read as the amount of its integer, with zeros in front or without. -/
theorem parse_padded (zeros : ℕ) (v : ℤ) : parse (padded zeros v) = .ok (ofInt v) := by
  obtain ⟨a, ha, hv⟩ := parse_of_writes (writes_padded zeros v)
  rw [ha, toInt_injective (hv.trans (toInt_ofInt v).symm)]

/-! ### Words of 256 bits -/

variable {a : Amount} {u : BitVec 256}

/-- An amount is a word of 256 bits when it denotes the number of the word. -/
theorem uint256?_eq_some_iff : a.uint256? = some u ↔ a.toInt = u.toNat := by
  have hu : u.toNat < 2 ^ 256 := u.isLt
  cases hn : a.negative with
  | true =>
    have hneg := a.toInt_neg_iff.2 hn
    rw [uint256?, if_pos hn]
    constructor
    · rintro ⟨⟩
    · intro h
      omega
  | false =>
    have hvalue : a.toInt = a.magnitude := by rw [toInt, hn]; rfl
    rw [uint256?, hn, if_neg Bool.false_ne_true, hvalue, Int.ofNat_inj]
    change (if a.magnitude < 2 ^ 256 then _ else _) = _ ↔ _
    split_ifs with h
    · rw [Option.some.injEq, ← BitVec.toNat_inj, BitVec.toNat_ofNat, Nat.mod_eq_of_lt h]
    · constructor
      · rintro ⟨⟩
      · intro he
        exact absurd (he ▸ hu) h

theorem uint256?_eq_none_iff : a.uint256? = none ↔ a.toInt < 0 ∨ 2 ^ 256 - 1 < a.toInt := by
  rw [Option.eq_none_iff_forall_ne_some]
  simp only [ne_eq, uint256?_eq_some_iff]
  constructor
  · intro h
    by_contra hin
    push Not at hin
    have hfits : a.toInt.toNat < 2 ^ 256 := by omega
    refine h (BitVec.ofNat 256 a.toInt.toNat) ?_
    rw [BitVec.toNat_ofNat, Nat.mod_eq_of_lt hfits]
    omega
  · intro h u hu
    have := u.isLt
    omega

end Amount

namespace Numeric

namespace Native

/-- The absolute value of a word. That of a signed word is taken as a word without a sign. -/
def magnitude : Native → ℕ
  | .uint64 v => v.toNat
  | .uint128 v => v.toNat
  | .int64 v => v.abs.toNat
  | .int128 v => v.abs.toNat
  | .uint256 v => v.toNat
  | .uint512 v => v.toNat

/-- A word in two's complement has its absolute value as a word without a sign, also the least one. -/
theorem toNat_abs_eq_natAbs {width : ℕ} (v : BitVec width) : v.abs.toNat = v.toInt.natAbs := by
  have hv := v.isLt
  rw [BitVec.toNat_abs, BitVec.toInt_eq_msb_cond]
  cases v.msb with
  | true =>
    simp only [if_true]
    omega
  | false => simp

theorem magnitude_eq (v : Native) : v.magnitude = v.toInt.natAbs := by
  cases v with
  | int64 v => exact toNat_abs_eq_natAbs v
  | int128 v => exact toNat_abs_eq_natAbs v
  | _ v => exact (Int.natAbs_natCast v.toNat).symm

/-- The amount of a word has the sign of the word before the digits of its absolute value. -/
theorem toAmount_eq (v : Native) : v.toAmount =
    Amount.ofCanonical (isNegative v) (Decimal.ofNat v.magnitude) (Decimal.isCanonical_ofNat _) := by
  have hsign : decide (v.toInt < 0) = isNegative v := by
    rw [Bool.eq_iff_iff, decide_eq_true_iff, (measures_native v).sign]
  simp only [toAmount, Amount.ofInt, hsign, magnitude_eq]

/-- An amount is a word of 256 bits when it is the amount of the word. -/
theorem uint256?_toAmount_iff {a : Amount} {u : BitVec 256} :
    a.uint256? = some u ↔ (uint256 u).toAmount = a := by
  rw [Amount.uint256?_eq_some_iff, eq_comm (a := a.toInt), ← Amount.toInt_injective.eq_iff,
    toAmount, Amount.toInt_ofInt]
  rfl

end Native

/-- **Amounts of native integers.** The amount of a word is the sign of the word before the digits of
its absolute value, and it is read from the numeral of the word, also with more zeros in front. An
amount is a word of 256 bits exactly when it denotes the number of the word: not below zero, and not
above the largest of these words. Amounts and words of 256 bits are taken into each other and back
without loss. -/
theorem natives_have_their_amounts :
    (∀ v : Native,
      v.toAmount = Amount.ofCanonical (isNegative v) (Decimal.ofNat v.magnitude)
        (Decimal.isCanonical_ofNat _) ∧
      Amount.parse (toString v.toInt).toList = .ok v.toAmount ∧
      Amount.padded 0 v.toInt = (toString v.toInt).toList ∧
      ∀ zeros, Amount.parse (Amount.padded zeros v.toInt) = .ok v.toAmount) ∧
    (∀ (a : Amount) (u : BitVec 256), a.uint256? = some u ↔ a.toInt = u.toNat) ∧
    (∀ a : Amount, a.uint256? = none ↔ a.toInt < 0 ∨ 2 ^ 256 - 1 < a.toInt) ∧
    (∀ u, (Native.uint256 u).toAmount.uint256? = some u) ∧
    ∀ (a : Amount) (u : BitVec 256), a.uint256? = some u ↔ (Native.uint256 u).toAmount = a := by
  refine ⟨fun v => ⟨v.toAmount_eq, Amount.parse_toString v.toInt, Amount.padded_zero v.toInt,
    fun zeros => Amount.parse_padded zeros v.toInt⟩, fun a u => Amount.uint256?_eq_some_iff,
    fun a => Amount.uint256?_eq_none_iff, fun u => Native.uint256?_toAmount_iff.2 rfl,
    fun a u => Native.uint256?_toAmount_iff⟩

/-- The least signed word has an absolute value that no signed word of its width has. -/
example : (Native.int64 (BitVec.intMin 64)).magnitude = 2 ^ 63 := by decide

example : Amount.padded 2 (-7) = "-007".toList := by decide

end Numeric

end TransferLedger
