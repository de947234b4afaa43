/-!
# Decimal digits

Natural numbers written with the digits `0` to `9`.

* `value`: the number that some digits write;
* `ofNat`: the shortest writing of a number;
* `IsCanonical`: a writing without needless zeros in front;
* `canonical`: the canonical writing of the number that some digits write;
* `word?`: a number below `2 ^ 64`, read from digits after an optional plus sign.
-/

namespace TransferLedger.Decimal

/-- One more digit at the end of a number. -/
def push (n : Nat) (c : Char) : Nat := 10 * n + (c.toNat - '0'.toNat)

/-- The number that some digits write. -/
def value (ds : List Char) : Nat := ds.foldl push 0

/-- The shortest writing of a number. -/
def ofNat (n : Nat) : List Char := Nat.toDigits 10 n

/-- At least one character, digits throughout, and no zero in front of another digit. -/
def IsCanonical (ds : List Char) : Prop :=
  ds ≠ [] ∧ (∀ c ∈ ds, c.isDigit = true) ∧ (ds.head? = some '0' → ds = ['0'])

theorem isCanonical_zero : IsCanonical ['0'] := by
  simp [IsCanonical]

/-- The same number without needless zeros in front. -/
def canonical (ds : List Char) : List Char :=
  match ds.dropWhile (· == '0') with
  | [] => ['0']
  | c :: r => c :: r

theorem isCanonical_canonical {ds : List Char} (h : ∀ c ∈ ds, c.isDigit = true) :
    IsCanonical (canonical ds) := by
  unfold canonical
  split
  · exact isCanonical_zero
  · rename_i c r hr
    refine ⟨by simp, fun d hd => h d ?_, fun hz => ?_⟩
    · exact (List.dropWhile_sublist _).subset (hr ▸ hd)
    · simpa [hr, show c = '0' by simpa using hz] using List.head?_dropWhile_not (· == '0') ds

/-- Digits are canonical or open with a zero that is not needed. -/
theorem canonical_eq_self {ds : List Char} (h : IsCanonical ds) : canonical ds = ds := by
  obtain ⟨hne, -, hz⟩ := h
  cases ds with
  | nil => exact absurd rfl hne
  | cons c r =>
    by_cases hc : c = '0'
    · subst hc
      have := hz rfl
      simp only [List.cons.injEq, true_and] at this
      subst this
      rfl
    · rw [canonical, List.dropWhile_cons_of_neg (by simpa using hc)]

/-- A positive number is written without a zero in front. -/
theorem head_ofNat {n : Nat} (hn : 0 < n) : (ofNat n).head? ≠ some '0' := by
  induction n using Nat.strongRecOn with
  | ind n ih =>
    rw [ofNat, Nat.toDigits_eq_if (by decide)]
    split
    · simpa using Nat.pos_iff_ne_zero.1 hn
    · have hpos : 0 < n / 10 := by omega
      have := ih (n / 10) (by omega) hpos
      rw [ofNat] at this
      rw [List.head?_append]
      cases hd : (Nat.toDigits 10 (n / 10)).head? with
      | none => exact absurd (List.head?_eq_none_iff.1 hd) Nat.toDigits_ne_nil
      | some c => rwa [hd] at this

theorem isCanonical_ofNat (n : Nat) : IsCanonical (ofNat n) := by
  refine ⟨Nat.toDigits_ne_nil, fun c hc => ?_, fun hz => ?_⟩
  · exact Nat.isDigit_of_mem_toDigits (by decide) (by decide) hc
  · rcases Nat.eq_zero_or_pos n with rfl | hn
    · rfl
    · exact absurd hz (head_ofNat hn)

/-- The least number that takes more than 64 bits. -/
def wordBound : Nat := Nat.pow 2 64

/-- A number below `2 ^ 64`: one or more digits after an optional plus sign. -/
def word? (s : List Char) : Option Nat :=
  let body := match s with
    | '+' :: r => r
    | r => r
  if !body.isEmpty && body.all Char.isDigit && value body < wordBound then some (value body) else none

end TransferLedger.Decimal
