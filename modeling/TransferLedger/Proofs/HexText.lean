import Mathlib.Tactic
import TransferLedger.Hex

/-!
# Hexadecimal text reads back

* `Hex.decode_encode`: the text of a byte string reads back as the byte string;
* `Hex.encode_injective`: different byte strings have different texts.
-/

namespace TransferLedger.Hex

/-- Each digit is one byte of text, which has the digit's value. -/
theorem digitChar_spec {k : ℕ} (hk : k < 16) :
    ∃ b, String.utf8EncodeChar (Nat.digitChar k) = [b] ∧ digitValue? b = some (UInt8.ofNat k) := by
  have key : ∀ k < 16, (String.utf8EncodeChar (Nat.digitChar k)).map digitValue? =
      [some (UInt8.ofNat k)] := by decide
  have := key k hk
  obtain ⟨b, hb, hv⟩ := List.map_eq_singleton_iff.1 this
  exact ⟨b, hb, hv⟩

/-- A byte is put together from its two digits. -/
theorem join_halves (b : UInt8) :
    16 * UInt8.ofNat (b.toNat / 16) + UInt8.ofNat (b.toNat % 16) = b := by
  apply UInt8.toNat_inj.1
  have := b.toNat_lt
  simp only [UInt8.toNat_add, UInt8.toNat_mul, UInt8.toNat_ofNat', UInt8.reduceToNat]
  omega

/-- The text of the digits of some bytes. -/
abbrev digitBytes (bs : List UInt8) : List UInt8 := (digits bs).flatMap String.utf8EncodeChar

theorem digitBytes_cons (b : UInt8) (bs : List UInt8) :
    ∃ high low, digitBytes (b :: bs) = high :: low :: digitBytes bs ∧
      digitValue? high = some (UInt8.ofNat (b.toNat / 16)) ∧
      digitValue? low = some (UInt8.ofNat (b.toNat % 16)) := by
  have hb := b.toNat_lt
  obtain ⟨high, hh, hv⟩ := digitChar_spec (k := b.toNat / 16) (by omega)
  obtain ⟨low, hl, lv⟩ := digitChar_spec (k := b.toNat % 16) (by omega)
  refine ⟨high, low, ?_, hv, lv⟩
  simp [digitBytes, digits, encodeByte, hh, hl]

theorem length_digitBytes (bs : List UInt8) : (digitBytes bs).length = 2 * bs.length := by
  induction bs with
  | nil => rfl
  | cons b bs ih =>
    obtain ⟨high, low, h, -, -⟩ := digitBytes_cons b bs
    rw [h, List.length_cons, List.length_cons, ih, List.length_cons]
    omega

/-- Pairs of digits give back the bytes that they write. -/
theorem decodePairs_digitBytes (position : ℕ) (bs : List UInt8) :
    decodePairs position (digitBytes bs) = .ok bs := by
  induction bs generalizing position with
  | nil => rfl
  | cons b bs ih =>
    obtain ⟨high, low, h, hh, hl⟩ := digitBytes_cons b bs
    rw [h]
    simp [decodePairs, digitAt, hh, hl, ih, join_halves, bind, Except.bind, pure, Except.pure]

/-- The text of a byte string reads back as the byte string. -/
theorem decode_encode {n : ℕ} (b : Bytes n) : decode n (encode b.toList) = .ok b := by
  have hbody : body (encode b.toList) = digits b.toList := rfl
  have hlen : (digitBytes b.toList).length = 2 * n := by
    rw [length_digitBytes, b.length_toList]
  simp only [decode, hbody]
  rw [if_neg (not_not.2 hlen), decodePairs_digitBytes]
  simp [bind, Except.bind, pure, Except.pure, b.length_toList]

/-- Different byte strings have different texts. -/
theorem encode_injective {n : ℕ} {a b : Bytes n} (h : encode a.toList = encode b.toList) :
    a = b := by
  have := congrArg (decode n) h
  simpa [decode_encode] using this

end TransferLedger.Hex
