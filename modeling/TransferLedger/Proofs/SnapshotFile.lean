import Mathlib.Tactic
import TransferLedger.Database.Neighbours
import TransferLedger.Proofs.JsonText
import TransferLedger.Proofs.TextLines
import TransferLedger.Store.Snapshot

/-!
# The file of a table reads back

* `Cells.IsStored`: the integers in a row are stored integers;
* `LawfulFileFormat`: what the program needs of the format of its files;
* `Snapshot.readRow_row`: a row reads back from its line;
* `Snapshot.isPrintable_row`: the line of a row has no control characters;
* `Snapshot.decode_encode`: a table reads back from its file;
* `Snapshot.not_isText_encode`: no file of a table is a text.
-/

namespace TransferLedger

/-- A cell holds no integer outside the range of stored integers. -/
def Cell.IsStored : Cell → Prop
  | .integer v => -(storedMax : ℤ) - 1 ≤ v ∧ v ≤ storedMax
  | _ => True

/-- No cell of a row holds an integer out of range. -/
def Cells.IsStored (r : Cells) : Prop := ∀ f, (r.get f).IsStored

/-- What the program needs of a format: a table that holds no integers out of range reads back from
its file, and the file is taken neither for an empty one nor for a text. -/
class LawfulFileFormat [FileFormat] : Prop where
  decode_encode (s : Snapshot) (h : ∀ r ∈ s.table.rows, r.IsStored) :
    FileFormat.decode (FileFormat.encode s) = some s
  not_isBlank (s : Snapshot) : Neighbours.isBlank (FileFormat.encode s) = false
  not_isText (s : Snapshot) : ¬IsText (FileFormat.encode s)

namespace Snapshot

open Json

/-! ### Cells -/

/-- What opens a numeral is neither white space nor what opens another value. -/
theorem opener_of_number {c : Char} (h : c = '-' ∨ c.isDigit = true) :
    isSpace c = false ∧ c ≠ 'n' ∧ c ≠ '"' := by
  rcases h with rfl | h
  · decide
  · refine ⟨isSpace_of_isDigit h, ?_, ?_⟩
    · rintro rfl
      exact absurd h (by decide)
    · rintro rfl
      exact absurd h (by decide)

/-- The text of an integer is a numeral that reads back as a number. -/
theorem readNumber_integer {v : ℤ} (hv : (Cell.integer v).IsStored) {r : List Char}
    (hr : IsBehindValue r) :
    ∃ c s, (Amount.ofInt v).toText ++ r = c :: s ∧ (c = '-' ∨ c.isDigit = true) ∧
      (readNumber (c :: s) = .ok (.natural v.toNat, r) ∧ 0 ≤ v ∨
        readNumber (c :: s) = .ok (.negative (-v).toNat, r) ∧ v < 0) := by
  obtain ⟨hmin, hmax⟩ := hv
  have hbound : (storedMax : ℤ) = 9223372036854775807 := by decide
  rw [hbound] at hmin hmax
  -- A number that is read is a natural number or the negative of one.
  rcases le_or_gt 0 v with h | h
  · obtain ⟨n, rfl⟩ := Int.eq_ofNat_of_zero_le h
    have hcanonical := Decimal.isCanonical_ofNat n
    obtain ⟨c, s, hs⟩ := List.exists_cons_of_ne_nil hcanonical.1
    have hread := readNumber_digits hcanonical (r := r) (by
      rw [Decimal.value_ofNat]
      show n < 2 ^ 64
      omega) hr
    rw [Decimal.value_ofNat] at hread
    rw [Amount.toText_ofInt_natCast]
    refine ⟨c, s ++ r, by rw [hs, List.cons_append], ?_, .inl ⟨?_, h⟩⟩
    · exact .inr (hcanonical.2.1 c (by simp [hs]))
    · rw [← List.cons_append, ← hs, hread, Int.toNat_natCast]
  · obtain ⟨n, rfl⟩ : ∃ n : ℕ, v = -(n : ℤ) := ⟨(-v).toNat, by omega⟩
    have hn : 0 < n := by omega
    have hread := readNumber_minus (Decimal.isCanonical_ofNat n) (r := r)
      (by rwa [Decimal.value_ofNat]) (by
        rw [Decimal.value_ofNat]
        show n ≤ 2 ^ 63
        omega) hr
    rw [Decimal.value_ofNat] at hread
    rw [Amount.toText_ofInt_neg hn]
    refine ⟨'-', Decimal.ofNat n ++ r, rfl, .inl rfl, .inr ⟨?_, h⟩⟩
    rw [hread, Int.neg_neg, Int.toNat_natCast]

/-- A written cell reads back. -/
theorem readCell_cell {c : Cell} (hc : c.IsStored) {r : List Char} (hr : IsBehindValue r) :
    readCell (cell c ++ r) = .ok (c, r) := by
  cases c with
  | null => rfl
  | text s =>
    show readCell ('"' :: (s.flatMap escape ++ ['"'] ++ r)) = _
    rw [List.append_assoc, List.singleton_append]
    simp [readCell, skipSpace_cons (c := '"') rfl, readText_quote]
  | integer v =>
    obtain ⟨c, s, hs, hopen, hread⟩ := readNumber_integer hc hr
    obtain ⟨hspace, hnull, hquote⟩ := opener_of_number hopen
    show readCell ((Amount.ofInt v).toText ++ r) = _
    rw [hs, readCell, skipSpace_cons hspace]
    simp only [hnull, hquote, if_false]
    rcases hread with ⟨hread, hv⟩ | ⟨hread, hv⟩
    · simp [hread, hv]
    · simp [hread]
      omega

/-- A cell behind its opening character reads back. -/
theorem cellBehind_cell {c : Cell} (hc : c.IsStored) {opener : Char} (ho : isSpace opener = false)
    {r : List Char} (hr : IsBehindValue r) :
    cellBehind opener (opener :: (cell c ++ r)) = .ok (c, r) := by
  rw [cellBehind, skipSpace_cons ho]
  simp only [if_true]
  exact readCell_cell hc hr

theorem isPrintable_cell (c : Cell) : IsPrintable (cell c) := by
  cases c with
  | null => exact show IsPrintable ['n', 'u', 'l', 'l'] by decide
  | text s => exact isPrintable_quote s
  | integer v =>
    have hdigits := isPrintable_digits fun c hc => (Amount.ofInt v).isDigit_of_mem hc
    show IsPrintable (Amount.ofInt v).toText
    unfold Amount.toText
    split
    · exact isPrintable_cons (by decide) hdigits
    · exact hdigits

/-! ### Rows -/

/-- The line of a row, cell by cell. -/
theorem row_eq (r : Cells) :
    row r = '[' :: (cell r.txHash ++ ',' :: (cell r.logIndex ++ ',' :: (cell r.blockNumber ++
      ',' :: (cell r.token ++ ',' :: (cell r.sender ++ ',' :: (cell r.receiver ++
        ',' :: (cell r.amount ++ [']']))))))) := by
  simp [row, Transfer.Field.all, separated, Cells.get]

/-- A row reads back from its line. -/
theorem readRow_row {r : Cells} (h : r.IsStored) : readRow (row r) = .ok r := by
  -- The reader of a cell stops where the next separator, or the closing bracket, is known to be.
  have hopen : isSpace '[' = false := rfl
  have hsep : isSpace ',' = false := rfl
  have hcomma : ∀ s, IsBehindValue (',' :: s) := isBehindValue_cons (.inl rfl)
  have hclose : IsBehindValue [']'] := isBehindValue_cons (.inr (.inl rfl)) _
  have htxHash : r.txHash.IsStored := h .txHash
  have hlogIndex : r.logIndex.IsStored := h .logIndex
  have hblockNumber : r.blockNumber.IsStored := h .blockNumber
  have htoken : r.token.IsStored := h .token
  have hsender : r.sender.IsStored := h .sender
  have hreceiver : r.receiver.IsStored := h .receiver
  have hamount : r.amount.IsStored := h .amount
  have hend : skipSpace [']'] = [']'] := rfl
  simp only [row_eq, readRow, bind, Except.bind, pure, Except.pure,
    cellBehind_cell htxHash hopen (hcomma _), cellBehind_cell hlogIndex hsep (hcomma _),
    cellBehind_cell hblockNumber hsep (hcomma _), cellBehind_cell htoken hsep (hcomma _),
    cellBehind_cell hsender hsep (hcomma _), cellBehind_cell hreceiver hsep (hcomma _),
    cellBehind_cell hamount hsep hclose, hend, if_true]

/-- The line of a row has no control characters. -/
theorem isPrintable_row (r : Cells) : IsPrintable (row r) := by
  have hcomma : 0x20 ≤ ','.toNat := by decide
  rw [row_eq]
  refine isPrintable_cons (by decide) ?_
  iterate 6 refine isPrintable_append (isPrintable_cell _) (isPrintable_cons hcomma ?_)
  exact isPrintable_append (isPrintable_cell _) (by decide)

theorem rowOf_encode {r : Cells} (h : r.IsStored) : rowOf? (Text.Utf8.encode (row r)) = some r := by
  simp [rowOf?, Text.Utf8.decode_encode, readRow_row h, Except.toOption]

/-- The rows read back from their lines. -/
theorem mapM_rowOf {rows : List Cells} (h : ∀ r ∈ rows, r.IsStored) :
    (rows.map fun r => Text.Utf8.encode (row r)).mapM rowOf? = some rows := by
  induction rows with
  | nil => rfl
  | cons r rows ih =>
    have hrows := ih fun q hq => h q (List.mem_cons_of_mem r hq)
    rw [List.map_cons, List.mapM_cons, rowOf_encode (h r List.mem_cons_self), hrows]
    rfl

/-! ### Files -/

/-- A number reads back from its four bytes. -/
theorem number_word (n : UInt32) (rest : List UInt8) : number (word n ++ rest) = n := by
  have h := n.toNat_lt
  show 256 * (256 * (256 * (256 * 0 + _) + _) + _) + _ = n
  apply UInt32.toNat_inj.1
  simp only [UInt32.toNat_add, UInt32.toNat_mul, UInt8.toNat_toUInt32, UInt32.toNat_toUInt8,
    UInt32.toNat_div, UInt32.reduceToNat]
  omega

/-- The lines of a file behind its heading. -/
theorem splitLines_rows (rows : List Cells) :
    splitLines (rows.flatMap fun r => Text.Utf8.encode (row r ++ ['\n'])) =
      rows.map fun r => Text.Utf8.encode (row r) := by
  have hlines : ∀ l ∈ rows.map row, '\n' ∉ l ∧ l.getLast? ≠ some '\r' := by
    intro l hl
    obtain ⟨r, -, rfl⟩ := List.mem_map.1 hl
    have hprintable := isPrintable_row r
    constructor
    · exact fun hn => absurd (hprintable _ hn) (by decide)
    · exact fun hr => absurd (hprintable _ (List.mem_of_getLast? hr)) (by decide)
  have := splitLines_lines hlines
  rwa [List.flatMap_map, List.map_map] at this

/-- A table reads back from its file, with what the heading tells. -/
theorem decode_encode {s : Snapshot} (h : ∀ r ∈ s.table.rows, r.IsStored) :
    decode s.encode = some s := by
  obtain ⟨changes, pages, ⟨rows⟩⟩ := s
  -- The parts of the heading have fixed lengths, so each is found by dropping those before it.
  have hchanges : number (Snapshot.encode ⟨changes, pages, ⟨rows⟩⟩ |>.drop title.length) =
      changes := by
    simp only [encode, heading, List.append_assoc, List.drop_left, number_word]
  have hpages : number (Snapshot.encode ⟨changes, pages, ⟨rows⟩⟩ |>.drop (title.length + 4)) =
      pages := by
    have hword : (word changes).length = 4 := rfl
    rw [← List.drop_drop]
    simp only [encode, heading, List.append_assoc, List.drop_left]
    rw [← hword, List.drop_left, number_word]
  have hfile : Snapshot.encode ⟨changes, pages, ⟨rows⟩⟩ = (heading changes pages ++ [0x0a]) ++
      rows.flatMap fun r => Text.Utf8.encode (row r ++ ['\n']) := by
    rw [encode, List.append_assoc, List.singleton_append]
  simp only [decode, hchanges, hpages]
  rw [hfile, if_pos (List.isPrefixOf_iff_prefix.2 (List.prefix_append _ _)), List.drop_left,
    splitLines_rows, mapM_rowOf h]
  rfl

/-- The heading alone is longer than what passes for an empty file. -/
theorem not_isBlank_encode (s : Snapshot) : Neighbours.isBlank s.encode = false := by
  have hword : (word s.changes).length = 4 := rfl
  simp only [Neighbours.isBlank, encode, heading, List.length_append, hword,
    decide_eq_false_iff_not]
  omega

/-- A file is no text, as its heading ends in a byte with which no character begins. -/
theorem not_isText_encode (s : Snapshot) : ¬IsText s.encode := by
  have hheading : heading s.changes s.pages = title ++ word s.changes ++ word s.pages ++
      List.replicate 60 0x20 ++ word s.changes ++ [0x20, 0x20] ++ [0x20] ++ [0x88] := by
    simp [heading]
  rw [encode, hheading]
  exact not_isText_of_stray (by decide) (by decide) (by decide) _ _

/-- The format in use is lawful. -/
instance : LawfulFileFormat where
  decode_encode _ h := decode_encode h
  not_isBlank := not_isBlank_encode
  not_isText := not_isText_encode

end Snapshot

end TransferLedger
