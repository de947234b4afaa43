import Mathlib.Tactic
import TransferLedger.Json.Number
import TransferLedger.Json.Text
import TransferLedger.Proofs.Numeral
import TransferLedger.Text.Span

/-!
# JSON that is written reads back

* `Json.readChar_escape`, `Json.readText_quote`: strings;
* `Json.IsPrintable`, `Json.isPrintable_quote`: a written string has no control characters;
* `Json.readNumber_digits`: integers in the range of 64 bits.
-/

namespace TransferLedger.Json

/-! ### White space -/

theorem skipSpace_cons {c : Char} (h : isSpace c = false) (r : List Char) :
    skipSpace (c :: r) = c :: r :=
  List.dropWhile_cons_of_neg (by simp [h])

/-- White space in front makes no difference. -/
theorem skipSpace_append {space : List Char} (h : ∀ c ∈ space, isSpace c = true) {c : Char}
    (hc : isSpace c = false) (r : List Char) : skipSpace (space ++ c :: r) = c :: r := by
  exact (List.dropWhile_append_of_pos h).trans (List.dropWhile_cons_of_neg (by simp [hc]))

/-- No digit is white space. -/
theorem isSpace_of_isDigit {c : Char} (h : c.isDigit = true) : isSpace c = false := by
  by_contra hspace
  simp only [isSpace, Bool.not_eq_false, Bool.or_eq_true, beq_iff_eq] at hspace
  rcases hspace with ((rfl | rfl) | rfl) | rfl <;> exact absurd h (by decide)

/-! ### Strings -/

/-- The escape of a control character reads back as its number. -/
theorem hexDigits_escape {n : ℕ} (h : n < 0x20) :
    hexDigits? '0' '0' (Nat.digitChar (n / 16)) (Nat.digitChar (n % 16)) = some n := by
  have key : ∀ m < 0x20,
      hexDigits? '0' '0' (Nat.digitChar (m / 16)) (Nat.digitChar (m % 16)) = some m := by decide
  exact key n h

/-- A written character reads back, whatever follows. -/
theorem readChar_escape (c : Char) (r : List Char) :
    readChar (escape c ++ r) = .ok (some c, r) := by
  unfold escape
  split
  iterate 7 rfl
  rename_i hquote hbackslash _ _ _ _ _
  split_ifs with h
  · have hlead : isLead c.toNat = false := by
      simp only [isLead, Bool.and_eq_false_iff, decide_eq_false_iff_not]
      omega
    have htrail : isTrail c.toNat = false := by
      simp only [isTrail, Bool.and_eq_false_iff, decide_eq_false_iff_not]
      omega
    have hunit : readPiece (['\\', 'u', '0', '0', Nat.digitChar (c.toNat / 16),
        Nat.digitChar (c.toNat % 16)] ++ r) = .ok (.unit c.toNat, r) := by
      simp [readPiece, readUnit, hexDigits_escape h]
    rw [readChar, hunit]
    simp [hlead, htrail, Char.ofNat_toNat]
  · have hpiece : readPiece ([c] ++ r) = .ok (.char c, r) := by
      simp only [List.singleton_append, readPiece, if_neg hquote, if_neg hbackslash, if_neg h]
    rw [readChar, hpiece]

/-- Written characters read back up to the closing quote, given more turns than characters. -/
theorem readTextFrom_escape (s done rest : List Char) {turns : ℕ} (h : s.length < turns) :
    readTextFrom turns done (s.flatMap escape ++ '"' :: rest) = .ok (done.reverse ++ s, rest) := by
  induction s generalizing turns done with
  | nil =>
    obtain ⟨turns, rfl⟩ := Nat.exists_eq_add_of_lt h
    simp [readTextFrom, readChar, readPiece]
  | cons c s ih =>
    obtain _ | turns := turns
    · exact absurd h (Nat.not_lt_zero _)
    · rw [List.flatMap_cons, List.append_assoc, readTextFrom, readChar_escape]
      simp only [ih (c :: done) (Nat.lt_of_succ_lt_succ h), List.reverse_cons, List.append_assoc,
        List.singleton_append]

theorem length_le_flatMap_escape (s : List Char) : s.length ≤ (s.flatMap escape).length := by
  induction s with
  | nil => exact le_rfl
  | cons c s ih =>
    have hc : 1 ≤ (escape c).length := by
      unfold escape
      split
      iterate 7 exact Nat.le_add_left 1 _
      split_ifs <;> simp
    rw [List.flatMap_cons, List.length_append, List.length_cons]
    omega

/-- A written string reads back, its opening quote having been read. -/
theorem readText_quote (s rest : List Char) :
    readText (s.flatMap escape ++ '"' :: rest) = .ok (s, rest) := by
  refine readTextFrom_escape s [] rest ?_
  have := length_le_flatMap_escape s
  rw [List.length_append]
  omega

/-- No control character, in particular neither a newline nor a carriage return. -/
def IsPrintable (s : List Char) : Prop := ∀ c ∈ s, 0x20 ≤ c.toNat

instance (s : List Char) : Decidable (IsPrintable s) :=
  List.decidableBAll (fun c : Char => 0x20 ≤ c.toNat) s

theorem isPrintable_append {s t : List Char} (hs : IsPrintable s) (ht : IsPrintable t) :
    IsPrintable (s ++ t) := by
  intro c hc
  rcases List.mem_append.1 hc with h | h
  · exact hs c h
  · exact ht c h

theorem isPrintable_cons {c : Char} {s : List Char} (hc : 0x20 ≤ c.toNat) (hs : IsPrintable s) :
    IsPrintable (c :: s) :=
  List.forall_mem_cons.2 ⟨hc, hs⟩

theorem isPrintable_digits {ds : List Char} (h : ∀ c ∈ ds, c.isDigit = true) : IsPrintable ds := by
  intro c hc
  have hdigit := h c hc
  simp only [Char.isDigit, Bool.and_eq_true, decide_eq_true_eq] at hdigit
  have : '0'.toNat ≤ c.toNat := UInt32.le_iff_toNat_le.1 hdigit.1
  exact le_trans (by decide) this

theorem isPrintable_escape (d : Char) : IsPrintable (escape d) := by
  unfold escape
  split
  iterate 7 decide
  have hdigit : ∀ n < 16, 0x20 ≤ (Nat.digitChar n).toNat := by decide
  have := hdigit (d.toNat % 16) (Nat.mod_lt _ (by norm_num))
  split_ifs with h
  · have := hdigit (d.toNat / 16) (by omega)
    intro c hc
    fin_cases hc <;> first | assumption | decide
  · intro c hc
    rw [List.mem_singleton.1 hc]
    omega

theorem isPrintable_quote (s : List Char) : IsPrintable (quote s) := by
  intro c hc
  rw [quote, List.mem_cons, List.mem_append, List.mem_singleton, List.mem_flatMap] at hc
  rcases hc with rfl | ⟨d, -, hd⟩ | rfl
  · decide
  · exact isPrintable_escape d c hd
  · decide

/-! ### Numbers -/

/-- What follows is nothing that a numeral goes on with. -/
def IsBehindValue (r : List Char) : Prop :=
  ∀ c ∈ r.head?, c.isDigit = false ∧ c ≠ '.' ∧ c ≠ 'e' ∧ c ≠ 'E'

/-- A comma or a closing bracket stands behind a value. -/
theorem isBehindValue_cons {c : Char} (h : c = ',' ∨ c = ']' ∨ c = '\x7d') (r : List Char) :
    IsBehindValue (c :: r) := by
  rintro d ⟨⟩
  rcases h with rfl | rfl | rfl <;> decide

section Numerals

variable {ds r : List Char}

/-- Digits are read up to what is no digit. -/
theorem readDigits_append (h : Amount.IsDigits ds) (hr : ∀ c ∈ r.head?, c.isDigit = false) :
    readDigits (ds ++ r) = .ok (ds, r) := by
  obtain ⟨hne, hd⟩ := h
  rw [readDigits, List.takeWhile_append_of_pos hd, List.dropWhile_append_of_pos hd,
    Text.takeWhile_of_head hr, Text.dropWhile_of_head hr, List.append_nil]
  obtain ⟨d, ds, rfl⟩ := List.exists_cons_of_ne_nil hne
  rfl

/-- A canonical numeral is read up to what is no digit. -/
theorem readInteger_append (h : Decimal.IsCanonical ds) (hr : ∀ c ∈ r.head?, c.isDigit = false) :
    readInteger (ds ++ r) = .ok (ds, r) := by
  obtain ⟨hne, hd, hz⟩ := h
  have hzero : ¬(ds.head? = some '0' ∧ ds ≠ ['0']) := fun h => h.2 (hz h.1)
  simp [readInteger, readDigits_append ⟨hne, hd⟩ hr, hzero, bind, Except.bind, pure, Except.pure]

/-- Without a point there is no fraction. -/
theorem readFraction_none (hr : ∀ c ∈ r.head?, c ≠ '.') : readFraction r = .ok (none, r) := by
  unfold readFraction
  split
  · exact absurd rfl (hr '.' rfl)
  · rfl

theorem readExponent_none (hr : ∀ c ∈ r.head?, c ≠ 'e' ∧ c ≠ 'E') :
    readExponent r = .ok (none, r) := by
  cases r with
  | nil => rfl
  | cons c r => rw [readExponent, if_neg (not_or.2 (hr c rfl))]

theorem IsBehindValue.not_digit (hr : IsBehindValue r) : ∀ c ∈ r.head?, c.isDigit = false :=
  fun c hc => (hr c hc).1

/-- No fraction and no exponent stand behind a value. -/
theorem IsBehindValue.readFraction (hr : IsBehindValue r) :
    readFraction r = .ok (none, r) :=
  readFraction_none fun c hc => (hr c hc).2.1

theorem IsBehindValue.readExponent (hr : IsBehindValue r) :
    readExponent r = .ok (none, r) :=
  readExponent_none fun c hc => (hr c hc).2.2

/-- More digits do not make a number smaller. -/
theorem le_foldl_push (n : ℕ) (ds : List Char) : n ≤ ds.foldl Decimal.push n := by
  rw [Decimal.foldl_push]
  have : 0 < 10 ^ ds.length := Nat.pow_pos (by norm_num)
  nlinarith

/-- Digits go into the significand as long as their number takes 64 bits at most. -/
theorem foldl_pushInteger (n : ℕ) (h : ds.foldl Decimal.push n < Decimal.wordBound) :
    ds.foldl Magnitude.pushInteger ⟨n, 0, false⟩ = ⟨ds.foldl Decimal.push n, 0, false⟩ := by
  induction ds generalizing n with
  | nil => rfl
  | cons c ds ih =>
    have hc : ¬Decimal.wordBound ≤ Decimal.push n c := by
      have := le_foldl_push (Decimal.push n c) ds
      rw [List.foldl_cons] at h
      omega
    have hpush : Magnitude.pushInteger ⟨n, 0, false⟩ c = ⟨Decimal.push n c, 0, false⟩ := by
      simp [Magnitude.pushInteger, hc]
    rw [List.foldl_cons, List.foldl_cons, hpush]
    exact ih _ h

/-- Rounding does not double a number. -/
theorem roundToDouble_le (n : ℕ) : Magnitude.roundToDouble n ≤ 2 * n := by
  unfold Magnitude.roundToDouble
  split_ifs with hn
  · omega
  · dsimp only
    have hpos : n ≠ 0 := by
      rintro rfl
      exact hn (by decide)
    have hunit : Nat.pow 2 (n.log2 - 52) ≤ n :=
      (Nat.pow_le_pow_right (by norm_num) (Nat.sub_le _ _)).trans (Nat.log2_self_le hpos)
    generalize Nat.pow 2 (n.log2 - 52) = unit at hunit
    have hdiv := Nat.div_mul_le_self n unit
    split_ifs <;> nlinarith

/-- Whole numbers of 64 bits are finite. -/
theorem isFinite_of_lt {n : ℕ} (h : n < Decimal.wordBound) (full : Bool) :
    Magnitude.isFinite ⟨n, 0, full⟩ = true := by
  have hone : Magnitude.roundToDouble 1 = 1 := by decide
  have hbound : 2 * Decimal.wordBound ≤ Magnitude.doubleBound := by decide +kernel
  have hround := roundToDouble_le n
  have hlt : Magnitude.roundToDouble n * Magnitude.roundToDouble 1 < Magnitude.doubleBound := by
    rw [hone]
    omega
  simp only [Magnitude.isFinite, Bool.or_eq_true, Bool.and_eq_true, decide_eq_true_eq]
  -- There is no exponent, so the power that the number is multiplied by is one.
  exact .inr ⟨by norm_num, hlt⟩

/-- The number that whole digits denote. -/
theorem numberOf_digits (hb : Decimal.value ds < Decimal.wordBound) :
    numberOf false ds none none = .ok (.natural (Decimal.value ds)) := by
  have hwhole : ds.foldl Magnitude.pushInteger {} = ⟨Decimal.value ds, 0, false⟩ :=
    foldl_pushInteger 0 hb
  have hfinite := isFinite_of_lt hb false
  simp [numberOf, hwhole, Magnitude.pushFraction, hfinite]

theorem numberOf_minus (h0 : 0 < Decimal.value ds) (hb : Decimal.value ds ≤ Nat.pow 2 63) :
    numberOf true ds none none = .ok (.negative (Decimal.value ds)) := by
  have hword : Decimal.value ds < Decimal.wordBound := hb.trans_lt (by decide)
  have hwhole : ds.foldl Magnitude.pushInteger {} = ⟨Decimal.value ds, 0, false⟩ :=
    foldl_pushInteger 0 hword
  have hfinite := isFinite_of_lt hword false
  have hlarge : ¬Nat.pow 2 63 < Decimal.value ds := hb.not_gt
  simp only [Nat.pow_eq] at hlarge
  simp [numberOf, hwhole, Magnitude.pushFraction, hfinite, h0.ne', hlarge]

/-- A canonical numeral of 64 bits is read. -/
theorem readNumber_digits (h : Decimal.IsCanonical ds) (hb : Decimal.value ds < Decimal.wordBound)
    (hr : IsBehindValue r) : readNumber (ds ++ r) = .ok (.natural (Decimal.value ds), r) := by
  have hread := readInteger_append h hr.not_digit
  obtain ⟨c, tail, rfl⟩ := List.exists_cons_of_ne_nil h.1
  have hc := (Decimal.digit_ne_sign (h.2.1 c List.mem_cons_self)).1
  rw [List.cons_append] at hread ⊢
  -- The reader looks for a sign first, and a digit is none.
  unfold readNumber
  split
  rename_i negative rest heq
  split at heq
  · exact absurd (List.cons.inj ‹_›).1 hc
  · obtain ⟨rfl, rfl⟩ := Prod.mk.inj heq
    simp [hread, hr.readFraction, hr.readExponent,
      numberOf_digits hb, bind, Except.bind, pure, Except.pure]

/-- So is one behind a minus sign, within the range of a stored integer. -/
theorem readNumber_minus (h : Decimal.IsCanonical ds) (h0 : 0 < Decimal.value ds)
    (hb : Decimal.value ds ≤ Nat.pow 2 63) (hr : IsBehindValue r) :
    readNumber ('-' :: (ds ++ r)) = .ok (.negative (Decimal.value ds), r) := by
  simp [readNumber, readInteger_append h hr.not_digit, hr.readFraction,
    hr.readExponent, numberOf_minus h0 hb, bind, Except.bind, pure, Except.pure]

end Numerals

end TransferLedger.Json
