import Mathlib.Tactic
import TransferLedger.Proofs.LawfulSource

/-!
# The lines of a text

Splitting looks at bytes, and a newline and a carriage return are each one byte that no other
character has.

* `isText_encode`: all lines of a text in UTF-8 are UTF-8;
* `not_isText_of_stray`: bytes with a line that ends in half a character are no text;
* `splitLines_lines`: lines that are written with a newline behind each are read back.
-/

namespace TransferLedger

open Text.Utf8

/-- Bytes without a newline become part of the line that has started. -/
theorem splitLinesFrom_append {xs : List UInt8} (h : 0x0a ∉ xs) (start rest : List UInt8) :
    splitLinesFrom start (xs ++ rest) = splitLinesFrom (xs.reverse ++ start) rest := by
  induction xs generalizing start with
  | nil => rfl
  | cons x xs ih =>
    have hx : x ≠ 0x0a := fun e => h (e ▸ List.mem_cons_self)
    have hxs : 0x0a ∉ xs := fun hm => h (List.mem_cons_of_mem x hm)
    rw [List.cons_append, splitLinesFrom, if_neg hx, ih hxs, List.reverse_cons, List.append_assoc,
      List.singleton_append]

/-- Nothing is taken off bytes that end in another one than a carriage return. -/
theorem chomp_concat {b : UInt8} (hb : b ≠ 0x0d) (xs : List UInt8) :
    chomp (xs ++ [b]).reverse = xs ++ [b] := by
  rw [List.reverse_concat, chomp, if_neg hb, List.reverse_cons, List.reverse_reverse]

/-- A text without the carriage return that may end it. -/
def dropReturn (s : List Char) : List Char := if s.getLast? = some '\r' then s.dropLast else s

theorem encode_concat (s : List Char) (c : Char) :
    encode (s ++ [c]) = encode s ++ String.utf8EncodeChar c := by
  rw [encode_append]
  simp [encode]

/-- Taking off the byte of a carriage return is taking off the carriage return. -/
theorem chomp_encode (s : List Char) : chomp (encode s).reverse = encode (dropReturn s) := by
  induction s using List.reverseRecOn with
  | nil => rfl
  | append_singleton t c =>
    by_cases hc : c = '\r'
    · subst hc
      have hdrop : dropReturn (t ++ ['\r']) = t := by
        rw [dropReturn, if_pos (by simp), List.dropLast_concat]
      rw [hdrop, encode_concat]
      show chomp (encode t ++ [0x0d]).reverse = encode t
      rw [List.reverse_concat, chomp, if_pos rfl, List.reverse_reverse]
    · have hdrop : dropReturn (t ++ [c]) = t ++ [c] := by
        rw [dropReturn, if_neg (by simpa using hc)]
      obtain ⟨a, as, hcons, -⟩ := decodeChar_encode c
      rcases List.eq_nil_or_concat' (String.utf8EncodeChar c) with hnil | ⟨xs, b, hb⟩
      · exact absurd (hcons.symm.trans hnil) (List.cons_ne_nil a as)
      · -- The last byte is no carriage return, as no other character has that byte.
        have hne : b ≠ 0x0d := by
          rintro rfl
          rcases toNat_of_mem_utf8EncodeChar (c := c) (b := 0x0d) (by simp [hb]) with hv | hv
          · exact hc (Char.val_inj.1 (UInt32.toNat_inj.1 hv.symm))
          · exact absurd hv (by decide)
        rw [hdrop, encode_concat, hb, ← List.append_assoc, chomp_concat hne]

/-- The lines behind the start of a line are UTF-8. -/
theorem mem_splitLinesFrom_encode (s start : List Char) {line : List UInt8}
    (h : line ∈ splitLinesFrom (encode start).reverse (encode s)) : ∃ text, encode text = line := by
  induction s generalizing start with
  | nil =>
    change line ∈ if (encode start).reverse.isEmpty then []
      else [(encode start).reverse.reverse] at h
    split at h
    · exact absurd h List.not_mem_nil
    · rw [List.reverse_reverse, List.mem_singleton] at h
      exact ⟨start, h.symm⟩
  | cons c s ih =>
    by_cases hc : c = '\n'
    · subst hc
      rw [encode_cons] at h
      change line ∈ chomp (encode start).reverse ::
        splitLinesFrom (encode []).reverse (encode s) at h
      rcases List.mem_cons.1 h with rfl | h
      · exact ⟨_, (chomp_encode start).symm⟩
      · exact ih [] h
    · have hbytes : 0x0a ∉ String.utf8EncodeChar c := by
        have := newline_not_mem_encode (s := [c]) (by simpa using Ne.symm hc)
        simpa [encode] using this
      rw [encode_cons, splitLinesFrom_append hbytes, ← List.reverse_append, ← encode_concat] at h
      exact ih _ h

/-- Every line of a text is UTF-8. -/
theorem isText_encode (s : List Char) : IsText (encode s) :=
  fun _ h => mem_splitLinesFrom_encode s [] h

/-- A byte that only continues a character does not stand behind a character of one byte. -/
theorem encode_ne_concat_stray {a b : UInt8} (ha : a.toNat < 0x80) (hb : isTail b = true)
    (ys : List UInt8) (s : List Char) : encode s ≠ ys ++ [a] ++ [b] := by
  rw [isTail_iff] at hb
  intro h
  rcases List.eq_nil_or_concat' s with rfl | ⟨t, c, rfl⟩
  · simp [encode] at h
  · obtain ⟨x, xs, hcons, hdecode⟩ := decodeChar_encode c
    rw [encode_concat, hcons] at h
    rcases List.eq_nil_or_concat' xs with rfl | ⟨zs, z, rfl⟩
    · -- The last character is this byte alone, with which no character begins.
      obtain ⟨-, hxb⟩ := List.append_inj' h rfl
      obtain rfl := (List.cons.inj hxb).1
      have hfault : decodeChar x [] = .error (some 1) := by
        simp only [decodeChar, UInt8.lt_iff_toNat_lt, UInt8.le_iff_toNat_le, UInt8.reduceToNat,
          Bool.and_eq_true, decide_eq_true_eq]
        rw [if_neg (by omega), if_neg (by omega), if_neg (by omega), if_neg (by omega)]
      cases hfault.symm.trans (hdecode [])
    · -- Otherwise the byte in front of it belongs to the same character.
      rw [← List.cons_append, ← List.append_assoc] at h
      obtain ⟨hfront, -⟩ := List.append_inj' h rfl
      have hmem : a ∈ String.utf8EncodeChar c := by
        have hlast : (encode t ++ x :: zs).getLast? = some a := by rw [hfront]; simp
        rw [List.getLast?_append_of_ne_nil _ (List.cons_ne_nil x zs)] at hlast
        rw [hcons, ← List.cons_append]
        exact List.mem_append_left _ (List.mem_of_getLast? hlast)
      rcases toNat_of_mem_utf8EncodeChar hmem with hv | hv
      · have hc : Char.ofNat a.toNat = c := hv ▸ Char.ofNat_toNat c
        have hone := encodeChar_one ha
        rw [hc, hcons] at hone
        simp at hone
      · omega

/-- Bytes with a line that ends in such a byte are no text. -/
theorem not_isText_of_stray {a b : UInt8} (ha : a.toNat < 0x80) (ha' : a ≠ 0x0a)
    (hb : isTail b = true) (xs rest : List UInt8) : ¬IsText (xs ++ [a] ++ [b] ++ 0x0a :: rest) := by
  have hb' : b ≠ 0x0a ∧ b ≠ 0x0d := by
    rw [isTail_iff] at hb
    constructor <;> rintro rfl <;> exact absurd hb.1 (by decide)
  have hline : ∀ start, ∃ ys, ys ++ [a] ++ [b] ∈
      splitLinesFrom start (xs ++ [a] ++ [b] ++ 0x0a :: rest) := by
    induction xs with
    | nil =>
      intro start
      refine ⟨start.reverse, ?_⟩
      have hchomp : chomp (b :: a :: start) = start.reverse ++ [a] ++ [b] := by
        simp [chomp, hb'.2]
      simp [splitLinesFrom, ha', hb'.1, hchomp]
    | cons x xs ih =>
      intro start
      simp only [List.cons_append, splitLinesFrom]
      split
      · exact (ih []).imp fun ys h => List.mem_cons_of_mem _ h
      · exact ih (x :: start)
  intro htext
  obtain ⟨ys, hys⟩ := hline []
  obtain ⟨s, hs⟩ := htext _ hys
  exact encode_ne_concat_stray ha hb ys s hs

/-- Lines without newlines, and with no carriage return at their ends, are read back when a newline
is written behind each. -/
theorem splitLines_lines {lines : List (List Char)}
    (h : ∀ l ∈ lines, '\n' ∉ l ∧ l.getLast? ≠ some '\r') :
    splitLines (lines.flatMap fun l => encode (l ++ ['\n'])) = lines.map encode := by
  induction lines with
  | nil => rfl
  | cons l lines ih =>
    obtain ⟨hnewline, hreturn⟩ := h l List.mem_cons_self
    have hdrop : dropReturn l = l := if_neg hreturn
    rw [List.flatMap_cons, encode_concat, List.append_assoc, splitLines,
      splitLinesFrom_append (newline_not_mem_encode hnewline), List.append_nil]
    show chomp (encode l).reverse :: splitLines (lines.flatMap fun l => encode (l ++ ['\n'])) = _
    rw [chomp_encode, hdrop, ih fun k hk => h k (List.mem_cons_of_mem l hk), List.map_cons]

end TransferLedger
