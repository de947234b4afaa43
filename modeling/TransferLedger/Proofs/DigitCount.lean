import Mathlib.Tactic
import TransferLedger.Numeric
import TransferLedger.Proofs.Numeral

/-!
# How many digits a number has

Digits are counted one by one, in groups of 19, or as the length of a numeral, and each of these
counts tells how many digits the number has.

* `HasDigits`: the number of decimal digits, told by the powers of ten around a number;
* `HasDigits.of_div`: digits that are taken off together are counted together;
* `Numeric.hasDigits_countDigits`, `Numeric.splitGroups_spec`, `Numeric.hasDigits_countWide`: the
  digits of a number, one by one and in groups;
* `Amount.hasDigits`: the digits of an amount.
-/

namespace TransferLedger

/-- A number has so many decimal digits. Zero has one. -/
structure HasDigits (n d : ℕ) : Prop where
  pos : 0 < d
  lt : n < 10 ^ d
  least : 1 < d → 10 ^ (d - 1) ≤ n

namespace HasDigits

variable {n d e k : ℕ}

/-- The number of digits decides whether a number is below a power of ten. -/
theorem le_iff (h : HasDigits n d) (hk : 0 < k) : d ≤ k ↔ n < 10 ^ k := by
  constructor
  · intro hle
    exact h.lt.trans_le (Nat.pow_le_pow_right (by norm_num) hle)
  · intro hlt
    by_contra hgt
    have hpow : 10 ^ (d - 1) < 10 ^ k := (h.least (by omega)).trans_lt hlt
    have := (Nat.pow_lt_pow_iff_right (by norm_num)).1 hpow
    omega

theorem unique (hd : HasDigits n d) (he : HasDigits n e) : d = e :=
  le_antisymm ((hd.le_iff he.pos).2 he.lt) ((he.le_iff hd.pos).2 hd.lt)

/-- Digits that are taken off at the end are counted with those that are left. -/
theorem of_div (h : HasDigits (n / 10 ^ k) d) (hpos : 0 < n / 10 ^ k) : HasDigits n (d + k) where
  pos := Nat.add_pos_left h.pos k
  lt := by
    rw [pow_add]
    exact (Nat.div_lt_iff_lt_mul (by positivity)).1 h.lt
  least _ := by
    have hleast : 10 ^ (d - 1) ≤ n / 10 ^ k := by
      by_cases hd : 1 < d
      · exact h.least hd
      · rw [show d - 1 = 0 by omega, pow_zero]
        exact hpos
    rw [show d + k - 1 = d - 1 + k by have := h.pos; omega, pow_add]
    exact (Nat.le_div_iff_mul_le (by positivity)).1 hleast

end HasDigits

namespace Numeric

theorem hasDigits_countDigits (n : ℕ) : HasDigits n (countDigits n) := by
  induction n using Nat.strongRecOn with
  | ind n ih =>
    rw [countDigits]
    split
    · rename_i h
      exact ⟨Nat.one_pos, h, fun h1 => absurd h1 (Nat.lt_irrefl 1)⟩
    · rename_i h
      refine HasDigits.of_div (k := 1) ?_ (by omega)
      exact ih (n / 10) (by omega)

theorem group_mul_pow (groups : ℕ) :
    group * 10 ^ (groupDigits * groups) = 10 ^ (groupDigits * (groups + 1)) := by
  change 10 ^ groupDigits * 10 ^ (groupDigits * groups) = _
  rw [← pow_add, Nat.mul_succ, Nat.add_comm]

/-- Whole groups of digits are taken off until less than a group is left, and something is. -/
theorem splitGroups_spec (rest digits : ℕ) :
    (splitGroups rest digits).1 < group ∧
      ∃ groups, (splitGroups rest digits).2 = digits + groupDigits * groups ∧
        (splitGroups rest digits).1 = rest / 10 ^ (groupDigits * groups) ∧
        (0 < groups → 0 < (splitGroups rest digits).1) := by
  induction rest, digits using splitGroups.induct with
  | case1 rest digits h _ ih =>
    rw [splitGroups, dif_pos h]
    obtain ⟨hlt, groups, hdigits, hrest, hpos⟩ := ih
    refine ⟨hlt, groups + 1, by rw [hdigits]; ring, ?_, fun _ => ?_⟩
    · rw [hrest, Nat.div_div_eq_div_mul, group_mul_pow]
    · obtain rfl | hg := Nat.eq_zero_or_pos groups
      · rw [hrest, Nat.mul_zero, pow_zero, Nat.div_one]
        exact Nat.div_pos h (by decide)
      · exact hpos hg
  | case2 rest digits h =>
    rw [splitGroups, dif_neg h]
    exact ⟨Nat.lt_of_not_le h, 0, rfl, by simp, fun h0 => absurd h0 (Nat.lt_irrefl 0)⟩

/-- No digit is lost when a wide word is measured, as less than a group fits into 64 bits. -/
theorem hasDigits_countWide (n : ℕ) : HasDigits n (countWide n) := by
  obtain ⟨hlt, groups, hdigits, hrest, hpos⟩ := splitGroups_spec n 0
  have hword : (splitGroups n 0).1 % Decimal.wordBound = (splitGroups n 0).1 :=
    Nat.mod_eq_of_lt (hlt.trans (by decide))
  have hcount : countWide n = countDigits (splitGroups n 0).1 + groupDigits * groups := by
    change (splitGroups n 0).2 + countDigits ((splitGroups n 0).1 % Decimal.wordBound) = _
    rw [hword, hdigits]
    ring
  have hleft := hasDigits_countDigits (splitGroups n 0).1
  rw [hcount]
  obtain rfl | hg := Nat.eq_zero_or_pos groups
  · rw [Nat.mul_zero, pow_zero, Nat.div_one] at hrest
    rw [hrest] at hleft ⊢
    exact hleft
  · have hsome := hpos hg
    rw [hrest] at hleft hsome ⊢
    exact hleft.of_div hsome

end Numeric

/-- An amount has as many digits as its absolute value. -/
theorem Amount.hasDigits (a : Amount) : HasDigits a.magnitude a.digitCount := by
  have hpos : 0 < a.digitCount := List.length_pos_of_ne_nil a.canonical.1
  have hle : ∀ {k}, 0 < k → (a.magnitude < 10 ^ k ↔ a.digitCount ≤ k) := fun hk =>
    Decimal.value_lt_pow_iff a.canonical hk
  refine ⟨hpos, (hle hpos).2 le_rfl, fun hone => ?_⟩
  by_contra hlt
  have := (hle (Nat.sub_pos_of_lt hone)).1 (Nat.lt_of_not_le hlt)
  omega

end TransferLedger
