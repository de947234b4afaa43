import Mathlib.Tactic
import TransferLedger.Text.Utf8

/-!
# UTF-8 reads back

* `Text.Utf8.decodeChar_encode`: the bytes of a character read back as the character;
* `Text.Utf8.decode_encode`: the bytes of a text read back as the text;
* `Text.Utf8.encode_of_decode`: nothing else reads back as it;
* `Text.Utf8.newline_not_mem_encode`: a text without newlines has no byte of one.
-/

namespace TransferLedger.Text.Utf8

/-! ### The bytes of a character -/

section Forms

variable {x y z w : ℕ} (r : List UInt8)

theorem toNat_ofNat (hx : x < 256) : (UInt8.ofNat x).toNat = x := by
  rw [UInt8.toNat_ofNat', Nat.mod_eq_of_lt hx]

/-- Six bits behind the mark of a continuation byte. -/
theorem isTail_ofNat (hx : x < 0x40) : isTail (UInt8.ofNat (x + 0x80)) = true := by
  have := toNat_ofNat (x := x + 0x80) (by omega)
  simp only [isTail, UInt8.le_iff_toNat_le, this, UInt8.reduceToNat, Bool.and_eq_true,
    decide_eq_true_eq]
  omega

theorem tailBits_ofNat (hx : x < 0x40) : tailBits (UInt8.ofNat (x + 0x80)) = x := by
  have := toNat_ofNat (x := x + 0x80) (by omega)
  unfold tailBits
  omega

theorem decodeChar_one (hx : x < 0x80) :
    decodeChar (UInt8.ofNat x) r = .ok (Char.ofNat x, r) := by
  have ha := toNat_ofNat (x := x) (by omega)
  simp only [decodeChar, UInt8.lt_iff_toNat_lt, ha, UInt8.reduceToNat, hx, if_true]

theorem decodeChar_two (hx : 2 ≤ x ∧ x < 0x20) (hy : y < 0x40) :
    decodeChar (UInt8.ofNat (x + 0xc0)) (UInt8.ofNat (y + 0x80) :: r) =
      .ok (Char.ofNat (x * 0x40 + y), r) := by
  have ha := toNat_ofNat (x := x + 0xc0) (by omega)
  simp only [decodeChar, UInt8.lt_iff_toNat_lt, UInt8.le_iff_toNat_le, ha, UInt8.reduceToNat,
    isTail_ofNat hy, tailBits_ofNat hy, Nat.add_sub_cancel, Bool.and_eq_true, decide_eq_true_eq,
    if_true]
  rw [if_neg (by omega), if_pos (by omega)]

theorem decodeChar_three (hx : x < 0x10) (hy : y < 0x40) (hz : z < 0x40)
    (hlong : x = 0 → 0x20 ≤ y) (hsurrogate : x = 0xd → y < 0x20) :
    decodeChar (UInt8.ofNat (x + 0xe0))
        (UInt8.ofNat (y + 0x80) :: UInt8.ofNat (z + 0x80) :: r) =
      .ok (Char.ofNat (x * 0x1000 + y * 0x40 + z), r) := by
  have ha := toNat_ofNat (x := x + 0xe0) (by omega)
  have hb := toNat_ofNat (x := y + 0x80) (by omega)
  have hsecond : isSecondOfThree (UInt8.ofNat (x + 0xe0)) (UInt8.ofNat (y + 0x80)) = true := by
    simp only [isSecondOfThree, isTail_ofNat hy, UInt8.le_iff_toNat_le, bne_iff_ne, Ne,
      ← UInt8.toNat_inj, ha, hb, UInt8.reduceToNat, Bool.and_eq_true, Bool.or_eq_true,
      decide_eq_true_eq, true_and]
    omega
  simp only [decodeChar, UInt8.lt_iff_toNat_lt, UInt8.le_iff_toNat_le, ha, UInt8.reduceToNat,
    hsecond, isTail_ofNat hz, tailBits_ofNat hy, tailBits_ofNat hz, Nat.add_sub_cancel,
    Bool.and_eq_true, decide_eq_true_eq, if_true]
  rw [if_neg (by omega), if_neg (by omega), if_pos (by omega)]

theorem decodeChar_four (hx : x < 5) (hy : y < 0x40) (hz : z < 0x40) (hw : w < 0x40)
    (hlong : x = 0 → 0x10 ≤ y) (hlast : x = 4 → y < 0x10) :
    decodeChar (UInt8.ofNat (x + 0xf0))
        (UInt8.ofNat (y + 0x80) :: UInt8.ofNat (z + 0x80) :: UInt8.ofNat (w + 0x80) :: r) =
      .ok (Char.ofNat (x * 0x40000 + y * 0x1000 + z * 0x40 + w), r) := by
  have ha := toNat_ofNat (x := x + 0xf0) (by omega)
  have hb := toNat_ofNat (x := y + 0x80) (by omega)
  have hsecond : isSecondOfFour (UInt8.ofNat (x + 0xf0)) (UInt8.ofNat (y + 0x80)) = true := by
    simp only [isSecondOfFour, isTail_ofNat hy, UInt8.le_iff_toNat_le, bne_iff_ne, Ne,
      ← UInt8.toNat_inj, ha, hb, UInt8.reduceToNat, Bool.and_eq_true, Bool.or_eq_true,
      decide_eq_true_eq, true_and]
    omega
  simp only [decodeChar, UInt8.lt_iff_toNat_lt, UInt8.le_iff_toNat_le, ha, UInt8.reduceToNat,
    hsecond, isTail_ofNat hz, isTail_ofNat hw, tailBits_ofNat hy, tailBits_ofNat hz,
    tailBits_ofNat hw, Nat.add_sub_cancel, Bool.and_eq_true, decide_eq_true_eq, if_true]
  rw [if_neg (by omega), if_neg (by omega), if_neg (by omega), if_pos (by omega)]

end Forms

/-- No surrogate is a character, and no number beyond the last one. -/
theorem val_range (c : Char) :
    c.val.toNat < 0xd800 ∨ 0xdfff < c.val.toNat ∧ c.val.toNat < 0x110000 := by
  simpa [UInt32.isValidChar, Nat.isValidChar] using c.valid

/-- The bytes of a character read back as the character, whatever follows. -/
theorem decodeChar_encode (c : Char) :
    ∃ a as, String.utf8EncodeChar c = a :: as ∧ ∀ r, decodeChar a (as ++ r) = .ok (c, r) := by
  have hrange := val_range c
  have hc : Char.ofNat c.val.toNat = c := Char.ofNat_toNat c
  unfold String.utf8EncodeChar
  generalize c.val.toNat = v at hrange hc
  subst hc
  dsimp only
  -- One case for each length: the parts are in range, and they make up the number again.
  split_ifs with h1 h2 h3
  · exact ⟨_, _, rfl, fun r => decodeChar_one r (by omega)⟩
  · refine ⟨_, _, rfl, fun r => (decodeChar_two r ?_ ?_).trans ?_⟩
    · omega
    · omega
    · rw [show v / 64 % 0x20 * 0x40 + v % 0x40 = v by omega]
  · refine ⟨_, _, rfl, fun r => (decodeChar_three r ?_ ?_ ?_ ?_ ?_).trans ?_⟩
    · omega
    · omega
    · omega
    · omega
    · omega
    · rw [show v / 4096 % 0x10 * 0x1000 + v / 64 % 0x40 * 0x40 + v % 0x40 = v by omega]
  · refine ⟨_, _, rfl, fun r => (decodeChar_four r ?_ ?_ ?_ ?_ ?_ ?_).trans ?_⟩
    · omega
    · omega
    · omega
    · omega
    · omega
    · omega
    · rw [show v / 262144 % 0x08 * 0x40000 + v / 4096 % 0x40 * 0x1000 + v / 64 % 0x40 * 0x40 +
        v % 0x40 = v by omega]

/-! ### The character of some bytes -/

theorem toNat_val_ofNat {v : ℕ} (hv : v < 0xd800 ∨ 0xdfff < v ∧ v < 0x110000) :
    (Char.ofNat v).val.toNat = v := by
  have hvalid : v.isValidChar := hv
  rw [Char.ofNat, dif_pos hvalid]
  rfl

theorem isTail_iff (b : UInt8) : isTail b = true ↔ 0x80 ≤ b.toNat ∧ b.toNat ≤ 0xbf := by
  simp [isTail, UInt8.le_iff_toNat_le]

/-- Behind a lead byte of three, tails that give overlong forms and surrogates are left out. -/
theorem isSecondOfThree_iff (a b : UInt8) : isSecondOfThree a b = true ↔
    (0x80 ≤ b.toNat ∧ b.toNat ≤ 0xbf) ∧ (a.toNat = 0xe0 → 0xa0 ≤ b.toNat) ∧
      (a.toNat = 0xed → b.toNat ≤ 0x9f) := by
  simp only [isSecondOfThree, UInt8.le_iff_toNat_le, bne_iff_ne, Ne, ← UInt8.toNat_inj,
    UInt8.reduceToNat, Bool.and_eq_true, Bool.or_eq_true, decide_eq_true_eq, isTail_iff]
  omega

theorem isSecondOfFour_iff (a b : UInt8) : isSecondOfFour a b = true ↔
    (0x80 ≤ b.toNat ∧ b.toNat ≤ 0xbf) ∧ (a.toNat = 0xf0 → 0x90 ≤ b.toNat) ∧
      (a.toNat = 0xf4 → b.toNat ≤ 0x8f) := by
  simp only [isSecondOfFour, UInt8.le_iff_toNat_le, bne_iff_ne, Ne, ← UInt8.toNat_inj,
    UInt8.reduceToNat, Bool.and_eq_true, Bool.or_eq_true, decide_eq_true_eq, isTail_iff]
  omega

section Forms

variable {a b c d : UInt8}

/-- A byte is determined by its number. -/
theorem ofNat_eq {x : ℕ} (h : x = a.toNat) : UInt8.ofNat x = a := by
  rw [h, UInt8.ofNat_toNat]

theorem encodeChar_one (ha : a.toNat < 0x80) :
    String.utf8EncodeChar (Char.ofNat a.toNat) = [a] := by
  have hv := toNat_val_ofNat (v := a.toNat) (by omega)
  simp only [String.utf8EncodeChar, hv]
  rw [if_pos (by omega), ofNat_eq rfl]

theorem encodeChar_two (ha : 0xc2 ≤ a.toNat ∧ a.toNat ≤ 0xdf)
    (hb : 0x80 ≤ b.toNat ∧ b.toNat ≤ 0xbf) :
    String.utf8EncodeChar (Char.ofNat ((a.toNat - 0xc0) * 0x40 + tailBits b)) = [a, b] := by
  unfold tailBits
  have hv := toNat_val_ofNat (v := (a.toNat - 0xc0) * 0x40 + (b.toNat - 0x80)) (by omega)
  simp only [String.utf8EncodeChar, hv]
  rw [if_neg (by omega), if_pos (by omega), ofNat_eq (a := a) (by omega),
    ofNat_eq (a := b) (by omega)]

theorem encodeChar_three (ha : 0xe0 ≤ a.toNat ∧ a.toNat ≤ 0xef)
    (hb : isSecondOfThree a b = true) (hc : 0x80 ≤ c.toNat ∧ c.toNat ≤ 0xbf) :
    String.utf8EncodeChar
        (Char.ofNat ((a.toNat - 0xe0) * 0x1000 + tailBits b * 0x40 + tailBits c)) =
      [a, b, c] := by
  obtain ⟨hb, hlong, hsurrogate⟩ := (isSecondOfThree_iff a b).1 hb
  unfold tailBits
  have hv := toNat_val_ofNat
    (v := (a.toNat - 0xe0) * 0x1000 + (b.toNat - 0x80) * 0x40 + (c.toNat - 0x80)) (by omega)
  simp only [String.utf8EncodeChar, hv]
  rw [if_neg (by omega), if_neg (by omega), if_pos (by omega), ofNat_eq (a := a) (by omega),
    ofNat_eq (a := b) (by omega), ofNat_eq (a := c) (by omega)]

theorem encodeChar_four (ha : 0xf0 ≤ a.toNat ∧ a.toNat ≤ 0xf4)
    (hb : isSecondOfFour a b = true) (hc : 0x80 ≤ c.toNat ∧ c.toNat ≤ 0xbf)
    (hd : 0x80 ≤ d.toNat ∧ d.toNat ≤ 0xbf) :
    String.utf8EncodeChar (Char.ofNat ((a.toNat - 0xf0) * 0x40000 + tailBits b * 0x1000 +
        tailBits c * 0x40 + tailBits d)) = [a, b, c, d] := by
  obtain ⟨hb, hlong, hlast⟩ := (isSecondOfFour_iff a b).1 hb
  unfold tailBits
  have hv := toNat_val_ofNat (v := (a.toNat - 0xf0) * 0x40000 + (b.toNat - 0x80) * 0x1000 +
    (c.toNat - 0x80) * 0x40 + (d.toNat - 0x80)) (by omega)
  simp only [String.utf8EncodeChar, hv]
  rw [if_neg (by omega), if_neg (by omega), if_neg (by omega), ofNat_eq (a := a) (by omega),
    ofNat_eq (a := b) (by omega), ofNat_eq (a := c) (by omega), ofNat_eq (a := d) (by omega)]

end Forms

/-- What is read as a character is the bytes of it. -/
theorem encodeChar_of_decodeChar {a : UInt8} {r s : List UInt8} {x : Char}
    (h : decodeChar a r = .ok (x, s)) : String.utf8EncodeChar x ++ s = a :: r := by
  simp only [decodeChar, UInt8.lt_iff_toNat_lt, UInt8.le_iff_toNat_le, UInt8.reduceToNat,
    Bool.and_eq_true, decide_eq_true_eq] at h
  -- One case for each length; in all others there is no character.
  split_ifs at h with h1 h2 h3 h4
  · obtain ⟨rfl, rfl⟩ := Prod.mk.inj (Except.ok.inj h)
    rw [encodeChar_one h1]
    rfl
  · split at h
    · cases h
    · split_ifs at h with hb
      obtain ⟨rfl, rfl⟩ := Prod.mk.inj (Except.ok.inj h)
      rw [encodeChar_two h2 ((isTail_iff _).1 hb)]
      rfl
  · split at h
    · cases h
    · split_ifs at h with hb
      split at h
      · cases h
      · split_ifs at h with hc
        obtain ⟨rfl, rfl⟩ := Prod.mk.inj (Except.ok.inj h)
        rw [encodeChar_three h3 hb ((isTail_iff _).1 hc)]
        rfl
  · split at h
    · cases h
    · split_ifs at h with hb
      split at h
      · cases h
      · split_ifs at h with hc
        split at h
        · cases h
        · split_ifs at h with hd
          obtain ⟨rfl, rfl⟩ := Prod.mk.inj (Except.ok.inj h)
          rw [encodeChar_four h4 hb ((isTail_iff _).1 hc) ((isTail_iff _).1 hd)]
          rfl

/-! ### The bytes of a text -/

theorem encode_cons (c : Char) (s : List Char) :
    encode (c :: s) = String.utf8EncodeChar c ++ encode s := rfl

theorem encode_append (s t : List Char) : encode (s ++ t) = encode s ++ encode t :=
  List.flatMap_append

/-- Decoding goes on behind what it has read, given as many turns as there are bytes. -/
theorem decodeFrom_encode (s done : List Char) {turns : ℕ} (i : ℕ)
    (h : (encode s).length ≤ turns) :
    decodeFrom turns i done (encode s) = .ok (done.reverse ++ s) := by
  induction s generalizing turns i done with
  | nil => simp [encode, decodeFrom]
  | cons c s ih =>
    obtain ⟨a, as, hbytes, hdecode⟩ := decodeChar_encode c
    rw [encode_cons, hbytes] at h ⊢
    obtain _ | turns := turns
    · simp at h
    · have hs : (encode s).length ≤ turns := by
        simp only [List.cons_append, List.length_cons, List.length_append] at h
        omega
      rw [List.cons_append, decodeFrom, hdecode]
      simp only [ih (c :: done) _ hs, List.reverse_cons, List.append_assoc, List.singleton_append]

/-- The bytes of a text read back as the text. -/
theorem decode_encode (s : List Char) : decode (encode s) = .ok s :=
  decodeFrom_encode s [] 0 le_rfl

/-- What is decoded stands in the bytes behind what was done before. -/
theorem encode_of_decodeFrom {turns i : ℕ} {done s : List Char} {bytes : List UInt8}
    (h : decodeFrom turns i done bytes = .ok s) : encode s = encode done.reverse ++ bytes := by
  induction turns generalizing i done bytes with
  | zero =>
    cases bytes with
    | nil =>
      cases h
      rw [List.append_nil]
    | cons a r => cases h
  | succ turns ih =>
    cases bytes with
    | nil =>
      cases h
      rw [List.append_nil]
    | cons a r =>
      rw [decodeFrom] at h
      split at h
      · cases h
      · rename_i c rest hchar
        rw [ih h, List.reverse_cons, encode_append, List.append_assoc,
          ← encodeChar_of_decodeChar hchar]
        simp [encode]

/-- What decodes to a text is the bytes of it. -/
theorem encode_of_decode {bytes : List UInt8} {s : List Char} (h : decode bytes = .ok s) :
    encode s = bytes :=
  encode_of_decodeFrom h

/-- A byte below `0x80` is a character of its own. -/
theorem toNat_of_mem_utf8EncodeChar {c : Char} {b : UInt8} (h : b ∈ String.utf8EncodeChar c) :
    b.toNat = c.val.toNat ∨ 0x80 ≤ b.toNat := by
  have hrange := val_range c
  unfold String.utf8EncodeChar at h
  generalize c.val.toNat = v at h hrange ⊢
  dsimp only at h
  split_ifs at h with h1 h2 h3
  · rw [List.mem_singleton] at h
    exact .inl (h ▸ toNat_ofNat (by omega))
  -- Each byte of a longer form carries a mark, and every mark is `0x80` at least.
  all_goals
    simp only [List.mem_cons, List.not_mem_nil, or_false] at h
    refine .inr ?_
    rcases h with rfl | rfl | rfl | rfl
    all_goals
      rw [toNat_ofNat (by omega)]
      exact Nat.le_add_left_of_le (by norm_num)

/-- A text without newlines has no byte of one. -/
theorem newline_not_mem_encode {s : List Char} (h : '\n' ∉ s) : 0x0a ∉ encode s := by
  intro hmem
  obtain ⟨c, hc, hb⟩ := List.mem_flatMap.1 hmem
  rcases toNat_of_mem_utf8EncodeChar hb with hv | hv
  · have : c = '\n' := Char.val_inj.1 (UInt32.toNat_inj.1 hv.symm)
    exact h (this ▸ hc)
  · exact absurd hv (by decide)

end TransferLedger.Text.Utf8
