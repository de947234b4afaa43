import Mathlib.Data.Nat.Log
import Mathlib.Tactic
import TransferLedger.Proofs.DigitCount
import TransferLedger.Proofs.SignedNumeral

/-!
# The digits of a wide word

A word of 256 or 512 bits is measured by division: as long as more than a group of 19 digits is
left, a group is taken off, and the digits of what is left in the end are counted in its low 64 bits.

* `Numeric.Shortening`: what is left of a word, and how many digits have been taken off it;
* `Numeric.Shortens`: the loop that takes off groups, with the number of its turns;
* `Numeric.exists_shortens`: the loop ends;
* `Numeric.Shortens.spec`: what it leaves, and how often it turns at most;
* `Numeric.Shortens.splitGroups_eq`: it is how a wide word is split into its groups;
* `Numeric.wide_words_are_measured`: the number of digits of every wide word.
-/

namespace TransferLedger.Numeric

variable {width : ℕ}

/-- What is left of a word, and how many digits have been taken off it. -/
structure Shortening (width : ℕ) where
  rest : BitVec width
  digits : ℕ

/-- The least number that is longer than a group, as a word. -/
def groupWord (width : ℕ) : BitVec width := BitVec.ofNat width group

/-- One more group is taken off. -/
def Shortening.next (s : Shortening width) : Shortening width where
  rest := s.rest / groupWord width
  digits := s.digits + groupDigits

/-- The loop: as long as more than a group is left, one is taken off, and this happens a number of
times. -/
inductive Shortens : ℕ → Shortening width → Shortening width → Prop
  | stop {s : Shortening width} (short : s.rest < groupWord width) : Shortens 0 s s
  | turn {turns : ℕ} {s last : Shortening width} (long : groupWord width ≤ s.rest)
      (more : Shortens turns s.next last) : Shortens (turns + 1) s last

/-! ### One turn -/

theorem toNat_groupWord (h : 64 ≤ width) : (groupWord width).toNat = group := by
  have hfits : group < 2 ^ width :=
    (show group < 2 ^ 64 by decide).trans_le (Nat.pow_le_pow_right (by norm_num) h)
  rw [groupWord, BitVec.toNat_ofNat, Nat.mod_eq_of_lt hfits]

theorem groupWord_le_iff (h : 64 ≤ width) (rest : BitVec width) :
    groupWord width ≤ rest ↔ group ≤ rest.toNat := by
  rw [BitVec.le_def, toNat_groupWord h]

theorem toNat_rest_next (h : 64 ≤ width) (s : Shortening width) :
    s.next.rest.toNat = s.rest.toNat / group := by
  rw [Shortening.next, BitVec.toNat_udiv, toNat_groupWord h]

/-! ### All turns -/

/-- The loop ends, as each turn makes the word smaller. -/
theorem exists_shortens (h : 64 ≤ width) (s : Shortening width) :
    ∃ turns last, Shortens turns s last := by
  induction hn : s.rest.toNat using Nat.strongRecOn generalizing s with
  | ind n ih =>
    by_cases hlong : groupWord width ≤ s.rest
    · have hgroup := (groupWord_le_iff h s.rest).1 hlong
      have hsmaller : s.next.rest.toNat < n := by
        rw [toNat_rest_next h, ← hn]
        exact Nat.div_lt_self (Nat.lt_of_lt_of_le (by decide) hgroup) (by decide)
      obtain ⟨turns, last, hlast⟩ := ih _ hsmaller s.next rfl
      exact ⟨turns + 1, last, .turn hlong hlast⟩
    · exact ⟨0, s, .stop (BitVec.not_le.1 hlong)⟩

namespace Shortens

variable {turns : ℕ} {s last : Shortening width}

/-- The loop leaves less than a group of what there was, and as long as it turns, something. -/
theorem spec (hw : 64 ≤ width) (h : Shortens turns s last) :
    last.rest.toNat = s.rest.toNat / group ^ turns ∧
      last.digits = s.digits + groupDigits * turns ∧ last.rest.toNat < group ∧
      (0 < turns → group ^ turns ≤ s.rest.toNat) := by
  induction h with
  | @stop s short =>
    refine ⟨by simp, by simp, ?_, fun h0 => absurd h0 (Nat.lt_irrefl 0)⟩
    exact Nat.lt_of_not_le (mt (groupWord_le_iff hw s.rest).2 (BitVec.not_le.2 short))
  | @turn turns s last long _ ih =>
    obtain ⟨hrest, hdigits, hlt, hle⟩ := ih
    rw [toNat_rest_next hw] at hrest hle
    refine ⟨?_, ?_, hlt, fun _ => ?_⟩
    · rw [hrest, Nat.div_div_eq_div_mul, pow_succ']
    · rw [hdigits, Shortening.next]
      ring
    · obtain rfl | hturns := Nat.eq_zero_or_pos turns
      · simpa using (groupWord_le_iff hw s.rest).1 long
      · rw [pow_succ]
        exact (Nat.le_div_iff_mul_le (by decide)).1 (hle hturns)

/-- Each turn takes 63 bits off at least. -/
theorem turns_lt (hw : 64 ≤ width) (h : Shortens turns s last) : 63 * turns < width := by
  obtain ⟨-, -, -, hle⟩ := h.spec hw
  obtain rfl | hturns := Nat.eq_zero_or_pos turns
  · omega
  · have hgroup : (2 ^ 63) ^ turns ≤ group ^ turns := Nat.pow_le_pow_left (by decide) turns
    have hlt : 2 ^ (63 * turns) < 2 ^ width := by
      rw [pow_mul]
      exact (hgroup.trans (hle hturns)).trans_lt s.rest.isLt
    exact (Nat.pow_lt_pow_iff_right (by norm_num)).1 hlt

/-- The loop splits a number as its groups are split. -/
theorem splitGroups_eq (hw : 64 ≤ width) (h : Shortens turns s last) :
    splitGroups s.rest.toNat s.digits = (last.rest.toNat, last.digits) := by
  induction h with
  | @stop s short =>
    rw [splitGroups, dif_neg (mt (groupWord_le_iff hw s.rest).2 (BitVec.not_le.2 short))]
  | @turn turns s last long _ ih =>
    rw [splitGroups, dif_pos ((groupWord_le_iff hw s.rest).1 long), ← ih, toNat_rest_next hw]
    rfl

end Shortens

/-! ### The digits -/

/-- A number has one digit more than its logarithm, and zero has one. -/
theorem countDigits_eq_log (n : ℕ) : countDigits n = Nat.log 10 n + 1 := by
  induction n using Nat.strongRecOn with
  | ind n ih =>
    rw [countDigits]
    split
    · rename_i h
      rw [Nat.log_of_lt h]
    · rename_i h
      have hlog := Nat.log_of_one_lt_of_le (b := 10) (by norm_num) (Nat.le_of_not_lt h)
      rw [ih (n / 10) (by omega), hlog]

/-- A numeral is as long as its number has digits. -/
theorem hasDigits_length_ofNat (n : ℕ) : HasDigits n (Decimal.ofNat n).length := by
  have h := (Amount.ofInt n).hasDigits
  rwa [← Amount.natAbs_toInt, Amount.toInt_ofInt, Amount.digitCount, Amount.digits_eq,
    Amount.toInt_ofInt, Int.natAbs_natCast] at h

end Numeric

/-- The number of digits of a positive number is the only one with powers of ten on both sides. -/
theorem HasDigits.eq_iff {n d : ℕ} (h : HasDigits n d) (hn : 0 < n) (e : ℕ) :
    e = d ↔ 1 ≤ e ∧ n < 10 ^ e ∧ 10 ^ (e - 1) ≤ n := by
  constructor
  · rintro rfl
    refine ⟨h.pos, h.lt, ?_⟩
    by_cases he : 1 < e
    · exact h.least he
    · rw [show e - 1 = 0 by omega, pow_zero]
      exact hn
  · rintro ⟨hpos, hlt, hle⟩
    exact HasDigits.unique ⟨hpos, hlt, fun _ => hle⟩ h

namespace Numeric

/-- A word is measured by the loop, which ends, and the count is the number of its digits. -/
structure IsMeasured {width : ℕ} (v : BitVec width) (count : ℕ) : Prop where
  ends : ∃ turns last, Shortens turns ⟨v, 0⟩ last
  /-- What is left is less than a group and fits into 64 bits, the low ones of the word, and the
  count is that of the groups and of what is left. -/
  left : ∀ turns last, Shortens turns ⟨v, 0⟩ last →
    63 * turns < width ∧ last.rest.toNat < 10 ^ 19 ∧ last.rest.toNat < 2 ^ 64 ∧
      (last.rest.setWidth 64).toNat = last.rest.toNat ∧
      count = last.digits + (Nat.log 10 (last.rest.setWidth 64).toNat + 1)
  zero : v.toNat = 0 → count = 1
  digits : 0 < v.toNat → ∀ d, d = count ↔ 1 ≤ d ∧ v.toNat < 10 ^ d ∧ 10 ^ (d - 1) ≤ v.toNat
  numeral : count = (Decimal.ofNat v.toNat).length

/-- A word is measured when it is long enough to hold a group. -/
theorem isMeasured_countWide {width : ℕ} (hw : 64 ≤ width) (v : BitVec width) :
    IsMeasured v (countWide v.toNat) where
  ends := exists_shortens hw ⟨v, 0⟩
  left turns last h := by
    obtain ⟨-, -, hgroup, -⟩ := h.spec hw
    have hword : last.rest.toNat < 2 ^ 64 := hgroup.trans (by decide)
    have hlow : (last.rest.setWidth 64).toNat = last.rest.toNat := by
      rw [BitVec.toNat_setWidth, Nat.mod_eq_of_lt hword]
    refine ⟨h.turns_lt hw, hgroup, hword, hlow, ?_⟩
    have hsplit : splitGroups v.toNat 0 = (last.rest.toNat, last.digits) := h.splitGroups_eq hw
    have hmod : last.rest.toNat % Decimal.wordBound = last.rest.toNat := Nat.mod_eq_of_lt hword
    simp only [countWide, hsplit, hmod, hlow, countDigits_eq_log]
  zero h := by
    have hzero : HasDigits v.toNat 1 :=
      ⟨Nat.one_pos, by rw [h]; norm_num, fun h1 => absurd h1 (Nat.lt_irrefl 1)⟩
    exact (hasDigits_countWide v.toNat).unique hzero
  digits h := (hasDigits_countWide v.toNat).eq_iff h
  numeral := (hasDigits_countWide v.toNat).unique (hasDigits_length_ofNat v.toNat)

/-- **Wide words are measured right.** The loop that takes groups of 19 digits off a word of 256 or
512 bits ends. It leaves less than a group, of which the low 64 bits lose nothing, and the digits of
that with those of the groups are the digits of the word: one for zero, and otherwise the only number
with the powers of ten around the word. -/
theorem wide_words_are_measured :
    (∀ v : BitVec 256, IsMeasured v (digitCount (Native.uint256 v))) ∧
    ∀ v : BitVec 512, IsMeasured v (digitCount (Native.uint512 v)) :=
  ⟨isMeasured_countWide (by norm_num), isMeasured_countWide (by norm_num)⟩

end Numeric

end TransferLedger
