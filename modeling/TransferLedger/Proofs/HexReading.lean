import Mathlib.Data.FinEnum
import Mathlib.Tactic
import TransferLedger.Direction
import TransferLedger.Proofs.HexText
import TransferLedger.Proofs.Utf8Text

/-!
# Hexadecimal text is read exactly

A text is read as a byte string when two digits for each byte stand behind its opening, in either
case, and it is then the text of the byte string up to case. The length is judged before the digits
are, in bytes of text, and of the digits the first wrong one is reported.

* `Hex.IsBody`: a text without the `0x` or `0X` in front of it;
* `Hex.IsDigit`, `Hex.IsDigits`: a digit in either case, and two digits for each of some bytes;
* `Hex.StopsAt`: the first byte of a text that is no digit, and its place;
* `Hex.decodePairs_spec`, `Hex.decode_spec`: what reading pairs of digits and reading a text come to;
* `Hex.decode_inverts_encode`: what is read, what is refused and why, and which texts read alike.
-/

namespace TransferLedger.Hex

/-! ### The opening of a text -/

/-- A text without its opening: one `0x` or `0X`, if it stands in front. -/
inductive IsBody : List Char → List Char → Prop
  | lower (text : List Char) : IsBody ('0' :: 'x' :: text) text
  | upper (text : List Char) : IsBody ('0' :: 'X' :: text) text
  | bare {text : List Char} (unopened : ∀ r, text ≠ '0' :: 'x' :: r ∧ text ≠ '0' :: 'X' :: r) :
      IsBody text text

theorem isBody_iff {s text : List Char} : IsBody s text ↔ text = body s := by
  constructor
  · rintro (_ | _ | unopened)
    · rfl
    · rfl
    · unfold body
      split
      · exact absurd rfl (unopened _).1
      · exact absurd rfl (unopened _).2
      · rfl
  · rintro rfl
    unfold body
    split
    · exact .lower _
    · exact .upper _
    · rename_i hx hX
      exact .bare fun r => ⟨hx r, hX r⟩

/-! ### Digits -/

/-- The digits in either case. -/
def digitChars : List Char := "0123456789abcdefABCDEF".toList

/-- A digit in either case. -/
def IsDigit (c : Char) : Prop := c ∈ digitChars

instance (c : Char) : Decidable (IsDigit c) := inferInstanceAs (Decidable (_ ∈ _))

/-- The character that has the number of a byte. -/
def byteChar (b : UInt8) : Char := Char.ofNat b.toNat

theorem toNat_byteChar (b : UInt8) : (byteChar b).toNat = b.toNat := by
  have := b.toNat_lt
  exact Text.Utf8.toNat_val_ofNat (.inl (by omega))

theorem toNat_lt_of_isDigit {b : UInt8} (hb : IsDigit (byteChar b)) : b.toNat < 0x80 := by
  have key : digitChars.all fun c => c.toNat < 0x80 := by decide
  have := of_decide_eq_true (List.all_eq_true.1 key _ hb)
  rwa [toNat_byteChar] at this

/-- A digit has the value of the digit that it is in lower case. -/
theorem digitValue?_of_isDigit {b : UInt8} (hb : IsDigit (byteChar b)) :
    ∃ v, digitValue? b = some v ∧ v.toNat < 16 ∧ Nat.digitChar v.toNat = (byteChar b).toLower := by
  have key : digitChars.all fun c => (digitValue? (UInt8.ofNat c.toNat)).any fun v =>
      v.toNat < 16 ∧ Nat.digitChar v.toNat = c.toLower := by decide +kernel
  obtain ⟨v, hv, hvalue⟩ := (Option.any_eq_true _ _).1 (List.all_eq_true.1 key _ hb)
  rw [toNat_byteChar, UInt8.ofNat_toNat] at hv
  exact ⟨v, hv, of_decide_eq_true hvalue⟩

theorem digitValue?_of_not_isDigit {b : UInt8} (hb : ¬IsDigit (byteChar b)) :
    digitValue? b = none := by
  have key : ∀ b, ¬IsDigit (byteChar b) → digitValue? b = none := by decide +kernel
  exact key b hb

theorem digitAt_of_isDigit {b : UInt8} (hb : IsDigit (byteChar b)) (position : ℕ) :
    ∃ v, digitAt position b = .ok v ∧ v.toNat < 16 ∧
      Nat.digitChar v.toNat = (byteChar b).toLower := by
  obtain ⟨v, hv, hvalue⟩ := digitValue?_of_isDigit hb
  exact ⟨v, by rw [digitAt, hv], hvalue⟩

theorem digitAt_of_not_isDigit {b : UInt8} (hb : ¬IsDigit (byteChar b)) (position : ℕ) :
    digitAt position b = .error (.invalidDigit b position) := by
  rw [digitAt, digitValue?_of_not_isDigit hb]

/-- A byte that is put together from two digits is written with these digits. -/
theorem encodeByte_join {high low : UInt8} (hh : high.toNat < 16) (hl : low.toNat < 16) :
    encodeByte (16 * high + low) = [Nat.digitChar high.toNat, Nat.digitChar low.toNat] := by
  have hjoin : (16 * high + low).toNat = 16 * high.toNat + low.toNat := by
    rw [UInt8.toNat_add, UInt8.toNat_mul]
    change (16 * high.toNat % 256 + low.toNat) % 256 = _
    omega
  rw [encodeByte, hjoin, show (16 * high.toNat + low.toNat) / 16 = high.toNat by omega,
    show (16 * high.toNat + low.toNat) % 16 = low.toNat by omega]

/-! ### Pairs of digits -/

/-- Digits stop at a byte that is none. It has so many digits before it. -/
inductive StopsAt : List UInt8 → ℕ → UInt8 → Prop
  | here {b : UInt8} {behind : List UInt8} (other : ¬IsDigit (byteChar b)) :
      StopsAt (b :: behind) 0 b
  | later {d b : UInt8} {rest : List UInt8} {i : ℕ} (digit : IsDigit (byteChar d))
      (h : StopsAt rest i b) : StopsAt (d :: rest) (i + 1) b

theorem StopsAt.unique {text : List UInt8} {i j : ℕ} {b c : UInt8} (h : StopsAt text i b)
    (ho : StopsAt text j c) : i = j ∧ b = c := by
  induction h generalizing j c with
  | here other =>
    cases ho with
    | here => exact ⟨rfl, rfl⟩
    | later digit _ => exact absurd digit other
  | later digit _ ih =>
    cases ho with
    | here other => exact absurd digit other
    | later _ ho =>
      obtain ⟨rfl, rfl⟩ := ih ho
      exact ⟨rfl, rfl⟩

theorem StopsAt.exists_other {text : List UInt8} {i : ℕ} {b : UInt8} (h : StopsAt text i b) :
    ∃ c ∈ text, ¬IsDigit (byteChar c) := by
  induction h with
  | here other => exact ⟨_, List.mem_cons_self, other⟩
  | later _ _ ih =>
    obtain ⟨c, hc, hother⟩ := ih
    exact ⟨c, List.mem_cons_of_mem _ hc, hother⟩

/-- Pairs of digits are read as the bytes that they write up to case, or the first byte that is no
digit is reported. -/
theorem decodePairs_spec {n : ℕ} {text : List UInt8} (hn : text.length = 2 * n) (position : ℕ) :
    (∃ bs, decodePairs position text = .ok bs ∧ bs.length = n ∧
      (∀ b ∈ text, IsDigit (byteChar b)) ∧ digits bs = text.map fun b => (byteChar b).toLower) ∨
    ∃ i b, decodePairs position text = .error (.invalidDigit b (position + i)) ∧
      StopsAt text i b := by
  induction n generalizing text position with
  | zero =>
    obtain rfl := List.length_eq_zero_iff.1 hn
    exact .inl ⟨[], rfl, rfl, nofun, rfl⟩
  | succ n ih =>
    obtain _ | ⟨high, _ | ⟨low, r⟩⟩ := text
    · simp at hn
    · simp at hn
      omega
    · by_cases hhigh : IsDigit (byteChar high)
      swap
      · refine .inr ⟨0, high, ?_, .here hhigh⟩
        rw [decodePairs, digitAt_of_not_isDigit hhigh]
        rfl
      obtain ⟨h, hh, hlt, hchar⟩ := digitAt_of_isDigit hhigh position
      by_cases hlow : IsDigit (byteChar low)
      swap
      · refine .inr ⟨1, low, ?_, .later hhigh (.here hlow)⟩
        rw [decodePairs, hh, digitAt_of_not_isDigit hlow]
        rfl
      obtain ⟨l, hl, llt, lchar⟩ := digitAt_of_isDigit hlow (position + 1)
      have hr : r.length = 2 * n := by
        simp only [List.length_cons] at hn
        omega
      rcases ih hr (position + 2) with ⟨bs, hbs, hlen, hall, htext⟩ | ⟨i, b, hb, hstop⟩
      · refine .inl ⟨(16 * h + l) :: bs, ?_, by rw [List.length_cons, hlen], ?_, ?_⟩
        · rw [decodePairs, hh, hl, hbs]
          rfl
        · exact List.forall_mem_cons.2 ⟨hhigh, List.forall_mem_cons.2 ⟨hlow, hall⟩⟩
        · rw [digits, List.flatMap_cons, ← digits, htext, encodeByte_join hlt llt, hchar, lchar]
          rfl
      · refine .inr ⟨i + 2, b, ?_, .later hhigh (.later hlow hstop)⟩
        rw [decodePairs, hh, hl, hb, Nat.add_assoc position 2 i, Nat.add_comm 2 i]
        rfl

/-! ### Texts and their bytes -/

/-- A digit is one byte of text. -/
theorem utf8EncodeChar_of_isDigit {c : Char} (hc : IsDigit c) :
    (String.utf8EncodeChar c).map byteChar = [c] := by
  have key : digitChars.all fun c => (String.utf8EncodeChar c).map byteChar = [c] := by decide
  exact of_decide_eq_true (List.all_eq_true.1 key c hc)

/-- No character but a digit has a digit among its bytes. -/
theorem isDigit_of_mem_utf8EncodeChar {c : Char} {b : UInt8} (h : b ∈ String.utf8EncodeChar c)
    (hb : IsDigit (byteChar b)) : IsDigit c := by
  have hlt := Nat.not_le_of_lt (toNat_lt_of_isDigit hb)
  have hval : b.toNat = c.toNat := (Text.Utf8.toNat_of_mem_utf8EncodeChar h).resolve_right hlt
  rwa [byteChar, hval, Char.ofNat_toNat] at hb

/-- A text has digits for bytes exactly when it has digits for characters. -/
theorem forall_isDigit_encode_iff {s : List Char} :
    (∀ b ∈ Text.Utf8.encode s, IsDigit (byteChar b)) ↔ ∀ c ∈ s, IsDigit c := by
  constructor
  · intro h c hc
    obtain ⟨b, hb⟩ := List.exists_mem_of_ne_nil _ (String.utf8EncodeChar_ne_nil (c := c))
    exact isDigit_of_mem_utf8EncodeChar hb (h b (List.mem_flatMap.2 ⟨c, hc, hb⟩))
  · intro h b hb
    obtain ⟨c, hc, hb⟩ := List.mem_flatMap.1 hb
    have hchar : byteChar b ∈ (String.utf8EncodeChar c).map byteChar := List.mem_map_of_mem hb
    rw [utf8EncodeChar_of_isDigit (h c hc), List.mem_singleton] at hchar
    rw [hchar]
    exact h c hc

theorem map_byteChar_encode {s : List Char} (h : ∀ c ∈ s, IsDigit c) :
    (Text.Utf8.encode s).map byteChar = s := by
  induction s with
  | nil => rfl
  | cons c s ih =>
    obtain ⟨hc, hs⟩ := List.forall_mem_cons.1 h
    rw [Text.Utf8.encode_cons, List.map_append, utf8EncodeChar_of_isDigit hc, ih hs]
    rfl

/-! ### What reading comes to -/

/-- Two digits for each of `n` bytes. -/
def IsDigits (n : ℕ) (text : List Char) : Prop := text.length = 2 * n ∧ ∀ c ∈ text, IsDigit c

instance (n : ℕ) (text : List Char) : Decidable (IsDigits n text) :=
  decidable_of_iff (text.length = 2 * n ∧ text.all fun c => IsDigit c) (by simp [IsDigits])

/-- The bytes of a text without its opening. -/
abbrev bodyBytes (s : List Char) : List UInt8 := Text.Utf8.encode (body s)

section Decode

variable {n : ℕ} {s t : List Char} {a b : Bytes n}

theorem IsDigits.length_encode (h : IsDigits n s) : (Text.Utf8.encode s).length = 2 * n := by
  rw [← h.1, ← List.length_map byteChar, map_byteChar_encode h.2]

/-- A text that stops at some byte has a character that is no digit. -/
theorem StopsAt.not_isDigits {i : ℕ} {c : UInt8} (h : StopsAt (Text.Utf8.encode s) i c) :
    ¬IsDigits n s := by
  obtain ⟨d, hd, hother⟩ := h.exists_other
  exact fun hs => hother (forall_isDigit_encode_iff.2 hs.2 d hd)

theorem decode_of_length_ne (h : (bodyBytes s).length ≠ 2 * n) :
    decode n s = .error (.invalidLength (2 * n) (bodyBytes s).length) :=
  if_pos h

theorem decode_of_length_eq (h : (bodyBytes s).length = 2 * n) :
    decode n s = decodePairs 0 (bodyBytes s) >>= fun bs =>
      if h : bs.length = n then pure ⟨bs, h⟩
      else .error (.invalidLength (2 * n) (2 * bs.length)) :=
  if_neg (not_not.2 h)

/-- A text has the wrong length, or it is the text of a byte string up to case and opening, or its
digits stop at some byte. -/
theorem decode_spec (n : ℕ) (s : List Char) :
    ((bodyBytes s).length ≠ 2 * n ∧
      decode n s = .error (.invalidLength (2 * n) (bodyBytes s).length)) ∨
    ((bodyBytes s).length = 2 * n ∧ IsDigits n (body s) ∧
      ∃ b, decode n s = .ok b ∧ encode b.toList = '0' :: 'x' :: (body s).map Char.toLower) ∨
    ((bodyBytes s).length = 2 * n ∧ ∃ i c,
      decode n s = .error (.invalidDigit c i) ∧ StopsAt (bodyBytes s) i c) := by
  by_cases hlen : (bodyBytes s).length = 2 * n
  · rcases decodePairs_spec hlen 0 with ⟨bs, hbs, hn, hall, hdigits⟩ | ⟨i, c, hc, hstop⟩
    · have hchars := forall_isDigit_encode_iff.1 hall
      have hmap := map_byteChar_encode hchars
      refine .inr (.inl ⟨hlen, ⟨?_, hchars⟩, ⟨bs, hn⟩, ?_, ?_⟩)
      · rw [← hlen, ← List.length_map byteChar, hmap]
      · rw [decode_of_length_eq hlen, hbs]
        exact dif_pos hn
      · rw [encode, hdigits, ← Function.comp_def, ← List.map_map, hmap]
    · refine .inr (.inr ⟨hlen, i, c, ?_, hstop⟩)
      rw [decode_of_length_eq hlen, hc, Nat.zero_add]
      rfl
  · exact .inl ⟨hlen, decode_of_length_ne hlen⟩

/-- A byte string is read from the texts that are its own up to case and opening. -/
theorem decode_eq_ok_iff : decode n s = .ok b ↔
    IsDigits n (body s) ∧ encode b.toList = '0' :: 'x' :: (body s).map Char.toLower := by
  rcases decode_spec n s with ⟨hlen, h⟩ | ⟨-, hdigits, a, h, ha⟩ | ⟨-, i, c, h, hstop⟩ <;> rw [h]
  · exact ⟨nofun, fun hb => absurd hb.1.length_encode hlen⟩
  · rw [← ha]
    refine ⟨?_, fun hb => by rw [encode_injective hb.2]⟩
    rintro ⟨⟩
    exact ⟨hdigits, rfl⟩
  · exact ⟨nofun, fun hb => absurd hb.1 hstop.not_isDigits⟩

theorem exists_decode_eq_ok_iff : (∃ b, decode n s = .ok b) ↔ IsDigits n (body s) := by
  constructor
  · rintro ⟨b, hb⟩
    exact (decode_eq_ok_iff.1 hb).1
  · intro hs
    rcases decode_spec n s with ⟨hlen, -⟩ | ⟨-, -, b, hb, -⟩ | ⟨-, i, c, -, hstop⟩
    · exact absurd hs.length_encode hlen
    · exact ⟨b, hb⟩
    · exact absurd hs hstop.not_isDigits

theorem decode_eq_invalidLength_iff {expected actual : ℕ} :
    decode n s = .error (.invalidLength expected actual) ↔
      expected = 2 * n ∧ actual = (bodyBytes s).length ∧ actual ≠ 2 * n := by
  rcases decode_spec n s with ⟨hlen, h⟩ | ⟨hlen, -, b, h, -⟩ | ⟨hlen, i, c, h, -⟩ <;> rw [h]
  · constructor
    · rintro ⟨⟩
      exact ⟨rfl, rfl, hlen⟩
    · rintro ⟨rfl, rfl, -⟩
      rfl
  · exact ⟨nofun, fun ⟨_, ha, hne⟩ => absurd (ha.trans hlen) hne⟩
  · exact ⟨nofun, fun ⟨_, ha, hne⟩ => absurd (ha.trans hlen) hne⟩

theorem decode_eq_invalidDigit_iff {found : UInt8} {position : ℕ} :
    decode n s = .error (.invalidDigit found position) ↔
      (bodyBytes s).length = 2 * n ∧ StopsAt (bodyBytes s) position found := by
  rcases decode_spec n s with ⟨hlen, h⟩ | ⟨-, hdigits, b, h, -⟩ | ⟨hlen, i, c, h, hstop⟩ <;> rw [h]
  · exact ⟨nofun, fun ho => absurd ho.1 hlen⟩
  · exact ⟨nofun, fun ho => absurd hdigits ho.2.not_isDigits⟩
  · constructor
    · rintro ⟨⟩
      exact ⟨hlen, hstop⟩
    · rintro ⟨-, ho⟩
      obtain ⟨rfl, rfl⟩ := hstop.unique ho
      rfl

/-- Texts are read alike when they are the same up to case and opening. -/
theorem eq_iff_of_decode (hs : decode n s = .ok a) (ht : decode n t = .ok b) :
    a = b ↔ (body s).map Char.toLower = (body t).map Char.toLower := by
  have ha := (decode_eq_ok_iff.1 hs).2
  have hb := (decode_eq_ok_iff.1 ht).2
  constructor
  · rintro rfl
    rw [ha] at hb
    simpa using hb
  · intro h
    apply encode_injective
    rw [ha, hb, h]

end Decode

/-- **Hexadecimal text is read exactly.** A text without its opening is read as `n` bytes exactly
when it is two digits for each of them, in either case, and it is in lower case what the bytes are
written with behind `0x`. Any other text is refused: for the length of its body, exactly when that
is not `2 * n` bytes of text, and otherwise for the first of these bytes that is no digit, with its
place in the body. What is written of a byte string is read as the byte string. Two texts give the
same bytes, and as sender and receiver make a transfer to oneself, exactly when their bodies are the
same in lower case. -/
theorem decode_inverts_encode (n : ℕ) (s : List Char) :
    (∀ text, IsBody s text ↔ text = body s) ∧
    ((∃ b, decode n s = .ok b) ↔ IsDigits n (body s)) ∧
    (∀ b, decode n s = .ok b ↔
      IsDigits n (body s) ∧ encode b.toList = '0' :: 'x' :: (body s).map Char.toLower) ∧
    (∀ expected actual, decode n s = .error (.invalidLength expected actual) ↔
      expected = 2 * n ∧ actual = (bodyBytes s).length ∧ actual ≠ 2 * n) ∧
    (∀ found position, decode n s = .error (.invalidDigit found position) ↔
      (bodyBytes s).length = 2 * n ∧ StopsAt (bodyBytes s) position found) ∧
    (∀ b : Bytes n, decode n (encode b.toList) = .ok b) ∧
    (∀ t a b, decode n s = .ok a → decode n t = .ok b →
      (a = b ↔ (body s).map Char.toLower = (body t).map Char.toLower)) ∧
    ∀ t sender receiver, decode 20 s = .ok sender → decode 20 t = .ok receiver →
      (Direction.between sender (some receiver) = .toSelf ↔
        (body s).map Char.toLower = (body t).map Char.toLower) := by
  refine ⟨fun text => isBody_iff, exists_decode_eq_ok_iff, fun b => decode_eq_ok_iff,
    fun expected actual => decode_eq_invalidLength_iff,
    fun found position => decode_eq_invalidDigit_iff, decode_encode,
    fun t a b hs ht => eq_iff_of_decode hs ht, fun t sender receiver hs ht => ?_⟩
  rw [Direction.between_eq_toSelf_iff, Option.some.injEq, eq_comm]
  exact eq_iff_of_decode hs ht

/-- An address in lower case, and the same address in upper case behind an opening. -/
theorem decode_inverts_encode_on_spellings :
    let lower := List.replicate 40 'a'
    let upper := '0' :: 'X' :: List.replicate 40 'A'
    ∃ a b, decode 20 lower = .ok a ∧ decode 20 upper = .ok b ∧ a = b ∧
      Direction.between a (some b) = .toSelf := by
  intro lower upper
  obtain ⟨a, ha⟩ := (decode_inverts_encode 20 lower).2.1.2 (by decide)
  obtain ⟨b, hb⟩ := (decode_inverts_encode 20 upper).2.1.2 (by decide)
  obtain ⟨-, -, -, -, -, -, halike, hself⟩ := decode_inverts_encode 20 lower
  exact ⟨a, b, ha, hb, (halike upper a b ha hb).2 (by decide),
    (hself upper a b ha hb).2 (by decide)⟩

/-- One opening is taken off, and a character outside ASCII counts as its bytes. -/
example : decode 2 "0X0Xé".toList = .error (.invalidDigit 0x58 1) := by decide +kernel

end TransferLedger.Hex
