import Mathlib.Tactic
import TransferLedger.Program
import TransferLedger.Proofs.JsonDatum
import TransferLedger.Proofs.Listing
import TransferLedger.Proofs.RecordText
import TransferLedger.Proofs.TextLines

/-!
# A row is a line

The text of a row is an object in the usual notation, whatever the strings of the row hold, and it
has no control character in it. So rows that are written one below another are told apart by the
newlines between them.

* `Json.isObject_object`: what is written as an object is one;
* `Row.datum`, `Row.means_valueText`: what the columns of a row hold, and that their texts mean it;
* `Row.isWritten_toJson`: the text of a row is an object of its columns;
* `Text.cut_lines`: lines with a newline behind each are cut apart again;
* `Outcome.output`: what the program shows, as a text;
* `Row.rows_take_lines`: rows are read back one by one, from any text and from a listing.
-/

namespace TransferLedger

/-! ### Written objects -/

namespace Json

/-- A written string spells the string. -/
theorem spells_escape (s : List Char) : Spells (s.flatMap escape) s :=
  readText_quote_iff.1 (readText_quote s [])

/-- A member as it is written: what stands between the quotes of its name, and its value. -/
def written (m : String × List Char) : List Char × List Char := (m.1.toList.flatMap escape, m.2)

theorem isMember_written (m : String × List Char) :
    IsMember (written m) (quote m.1.toList ++ ':' :: m.2) := by
  refine ⟨(spells_escape _).isContent, [], [], isSpacing_nil, isSpacing_nil, ?_⟩
  simp [written, quote]

/-- Members that are written one behind another are listed, without white space. -/
theorem separated_members (m : String × List Char) (ms : List (String × List Char)) :
    Separated IsMember ((m :: ms).map written) (members (m :: ms)) := by
  induction ms generalizing m with
  | nil =>
    have h := Separated.one isSpacing_nil (isMember_written m) isSpacing_nil
    rwa [List.nil_append, List.append_nil] at h
  | cons n ms ih =>
    have h := Separated.more isSpacing_nil (isMember_written m) isSpacing_nil (ih n)
    obtain ⟨name, value⟩ := m
    simpa [members] using h

/-- What is written as an object is one, when its values are values. -/
theorem isObject_object {ms : List (String × List Char)} (h : ∀ m ∈ ms, IsValue m.2) :
    IsObject (ms.map written) (object ms) := by
  have hvalues : ∀ m ∈ ms.map written, IsValue m.2 := by
    intro m hm
    obtain ⟨n, hn, rfl⟩ := List.mem_map.1 hm
    exact h n hn
  have hlisted : Listed IsMember (ms.map written) (members ms) := by
    cases ms with
    | nil => exact .empty isSpacing_nil
    | cons m ms => exact .items (separated_members m ms)
  exact .intro isSpacing_nil hvalues hlisted isSpacing_nil

end Json

/-! ### Rows -/

namespace Row

open Json

/-- What a column of a row holds. -/
def datum (row : Row) : Field → Datum
  | .txHash => .text row.txHash
  | .logIndex => .natural row.logIndex.toNat
  | .blockNumber => .natural row.blockNumber.toNat
  | .token => .text row.token
  | .sender => .text row.sender
  | .receiver => row.receiver.elim .null .text
  | .amount => .text row.amount
  | .direction => .text row.direction.name.toList

/-- The digits of a number mean the number. -/
theorem means_digits (n : ℕ) : Means (Decimal.ofNat n) (.natural n) :=
  means_natural_iff.2 ⟨Decimal.isCanonical_ofNat n, Decimal.value_ofNat n⟩

theorem means_optionalText (o : Option (List Char)) :
    Means (optionalText quote o) (o.elim .null .text) := by
  cases o with
  | none => exact .null
  | some s => exact means_quote s

/-- The text of a column means what the column holds. -/
theorem means_valueText (row : Row) (f : Field) : Means (row.valueText f) (row.datum f) := by
  cases f with
  | logIndex | blockNumber => exact means_digits _
  | receiver => exact means_optionalText row.receiver
  | txHash | token | sender | amount | direction => exact means_quote _

/-- A text is an object with the columns of a row for members, in their own order. -/
def IsWritten (row : Row) (s : List Char) : Prop :=
  ∃ ms, IsObject ms s ∧
    List.Forall₂ (fun f m => Spells m.1 f.name.toList ∧ Means m.2 (row.datum f)) Field.all ms

theorem isWritten_toJson (row : Row) : row.IsWritten row.toJson := by
  rw [toJson_eq]
  refine ⟨_, isObject_object fun m hm => ?_, ?_⟩
  · simp only [Form.membersOf, List.map_map, List.mem_map] at hm
    obtain ⟨f, -, rfl⟩ := hm
    exact (row.means_valueText f).isValue
  · rw [Form.membersOf, List.map_map, List.map_map, List.forall₂_map_right_iff, List.forall₂_same]
    exact fun f _ => ⟨spells_escape _, row.means_valueText f⟩

/-- The text of a row takes one line. -/
theorem newline_not_mem_toJson (row : Row) : '\n' ∉ row.toJson := fun h =>
  absurd (row.isPrintable_toJson _ h) (by decide)

/-- The row that a line of bytes holds. -/
def ofLine? (line : List UInt8) : Option Row :=
  (Text.Utf8.decode line).toOption.bind fun s => (ofJson s).toOption

theorem ofLine?_encode (row : Row) : ofLine? (Text.Utf8.encode row.toJson) = some row := by
  rw [ofLine?, Text.Utf8.decode_encode, Except.toOption, Option.bind_some, ofJson_toJson]
  rfl

/-- Rows as a text, a newline behind each. -/
def textOf (rows : List Row) : List Char := (rows.map toJson).flatMap (· ++ ['\n'])

end Row

/-- Behind the start of a part, what has no separator belongs to the part. -/
theorem Text.cutFrom_append {α : Type} [DecidableEq α] {sep : α} {s : List α} (h : sep ∉ s)
    (start rest : List α) : cutFrom sep start (s ++ rest) = cutFrom sep (s.reverse ++ start) rest := by
  induction s generalizing start with
  | nil => rfl
  | cons c s ih =>
    obtain ⟨hc, hs⟩ := not_or.1 (mt List.mem_cons.2 h)
    rw [List.cons_append, cutFrom, if_neg (Ne.symm hc), ih hs, List.reverse_cons, List.append_assoc,
      List.singleton_append]

/-- Parts with the separator behind each are cut apart, and behind the last stands nothing. -/
theorem Text.cut_lines {α : Type} [DecidableEq α] {sep : α} {lines : List (List α)}
    (h : ∀ l ∈ lines, sep ∉ l) : cut sep (lines.flatMap (· ++ [sep])) = lines ++ [[]] := by
  induction lines with
  | nil => rfl
  | cons l lines ih =>
    obtain ⟨hl, hlines⟩ := List.forall_mem_cons.1 h
    rw [List.flatMap_cons, List.append_assoc, cut, cutFrom_append hl, List.append_nil,
      List.singleton_append, cutFrom, if_pos rfl, List.reverse_reverse, List.cons_append, ← ih hlines,
      cut]

namespace Row

theorem cut_textOf (rows : List Row) : Text.cut '\n' (textOf rows) = rows.map toJson ++ [[]] := by
  refine Text.cut_lines fun l hl => ?_
  obtain ⟨row, -, rfl⟩ := List.mem_map.1 hl
  exact row.newline_not_mem_toJson

/-- The lines of the text of some rows are those of the rows. -/
theorem splitLines_textOf (rows : List Row) :
    splitLines (Text.Utf8.encode (textOf rows)) =
      rows.map fun row => Text.Utf8.encode row.toJson := by
  have hlines : ∀ l ∈ rows.map toJson, '\n' ∉ l ∧ l.getLast? ≠ some '\r' := by
    intro l hl
    obtain ⟨row, -, rfl⟩ := List.mem_map.1 hl
    refine ⟨row.newline_not_mem_toJson, fun hreturn => ?_⟩
    exact absurd (row.isPrintable_toJson _ (List.mem_of_getLast? hreturn)) (by decide)
  have hbytes : Text.Utf8.encode (textOf rows) =
      (rows.map toJson).flatMap fun l => Text.Utf8.encode (l ++ ['\n']) := List.flatMap_assoc
  rw [hbytes, splitLines_lines hlines, List.map_map]
  rfl

/-- Rows are read back from the lines of their text. -/
theorem mapM_ofLine?_textOf (rows : List Row) :
    (splitLines (Text.Utf8.encode (textOf rows))).mapM ofLine? = some rows := by
  rw [splitLines_textOf]
  induction rows with
  | nil => rfl
  | cons row rows ih =>
    rw [List.map_cons, List.mapM_cons, ofLine?_encode, ih]
    rfl

end Row

/-! ### Listings -/

/-- What the program shows, as a text: a newline stands behind each line. -/
def Outcome.output (o : Outcome) : List Char := o.lines.flatMap (· ++ ['\n'])

namespace Program

/-- A listing shows nothing and fails, or it shows rows. -/
theorem run_of_list [FileFormat] {s : Surroundings} {plan : Plan} {limit : ℕ}
    (hplan : Plan.make s.args s.environment = .ok plan) (hcommand : plan.command = .list limit) :
    ((run s).code = 1 ∧ (run s).output = []) ∨
      ∃ ts, (run s).code = 0 ∧
        (∃ db, (Database.openAt plan.config.dbPath s.directory).result = .ok db ∧
          Store.recent limit db = .ok ts) ∧
        (run s).lines = ts.map fun t => t.row.toJson := by
  cases hfault : plan.config.fault with
  | some fault =>
    refine .inl ?_
    simp only [run, hplan, hfault]
    exact ⟨rfl, rfl⟩
  | none =>
    rw [run_eq hplan hfault, runPlan]
    generalize Database.openAt plan.config.dbPath s.directory = opening
    cases hopen : opening.result with
    | error why => exact .inl ⟨rfl, rfl⟩
    | ok db =>
      simp only [perform, hcommand, list]
      cases hrecent : Store.recent limit db with
      | error error => exact .inl ⟨rfl, rfl⟩
      | ok ts => exact .inr ⟨ts, rfl, ⟨db, rfl, hrecent⟩, rfl⟩

end Program

/-- **A row is a line.** The text of a row is an object of the columns of the row, whatever their
strings hold. It reads back as the row, and has no control character, so in particular no newline.
The text of some rows, with a newline behind each, is cut at its newlines into the texts of the rows,
with nothing behind the last newline, and is read line by line as these rows. What a listing shows is
such a text, with a row for each transfer that is found, or it is nothing when the listing fails. -/
theorem Row.rows_take_lines [FileFormat] :
    (∀ row : Row, row.IsWritten row.toJson ∧ ofJson row.toJson = .ok row ∧
      (∀ c ∈ row.toJson, 0x20 ≤ c.toNat) ∧ '\n' ∉ row.toJson) ∧
    (∀ rows : List Row, Text.cut '\n' (textOf rows) = rows.map toJson ++ [[]] ∧
      (splitLines (Text.Utf8.encode (textOf rows))).mapM ofLine? = some rows) ∧
    ∀ (s : Surroundings) (plan : Plan) (limit : ℕ), Plan.make s.args s.environment = .ok plan →
      plan.command = .list limit →
      let shown := Program.run s
      (shown.code = 1 ∧ shown.output = []) ∨
      ∃ ts : List Transfer, shown.code = 0 ∧
        (∃ db, (Database.openAt plan.config.dbPath s.directory).result = .ok db ∧
          Store.recent limit db = .ok ts) ∧
        shown.lines = ts.map (fun t => t.row.toJson) ∧
        Text.cut '\n' shown.output = shown.lines ++ [[]] ∧
        (splitLines (Text.Utf8.encode shown.output)).mapM ofLine? = some (ts.map Transfer.row) := by
  refine ⟨fun row => ?_, fun rows => ?_, fun s plan limit hplan hcommand => ?_⟩
  · exact ⟨row.isWritten_toJson, row.ofJson_toJson, row.isPrintable_toJson,
      row.newline_not_mem_toJson⟩
  · exact ⟨cut_textOf rows, mapM_ofLine?_textOf rows⟩
  · rcases Program.run_of_list hplan hcommand with hnone | ⟨ts, code, found, lines⟩
    · exact .inl hnone
    · have houtput : (Program.run s).output = textOf (ts.map Transfer.row) := by
        rw [Outcome.output, lines, textOf, List.map_map]
        rfl
      refine .inr ⟨ts, code, found, lines, ?_, ?_⟩
      · rw [houtput, cut_textOf, lines, List.map_map]
        rfl
      · rw [houtput, mapM_ofLine?_textOf]

/-- A row with all kinds of characters that are escaped. -/
def Row.sample : Row where
  txHash := "say \"\\n\"\r\n".toList
  logIndex := 18446744073709551615
  blockNumber := 0
  token := ['\x00', '\x08', '\x0c', '\x1f', '\x7f', '\t']
  sender := "😀é\u2028/".toList
  receiver := some []
  amount := "\\u0041".toList
  direction := .toSelf

/-- That row reads back, and two transfers of the sample are listed on two lines. -/
theorem Row.rows_take_lines_on_sample :
    let s₁ := Program.invoked ["-d", "a.db", "run", "-b", "2"] {}
    let s₂ := Program.invoked ["-d", "a.db", "list", "-l", "2"] (Program.run s₁).directory
    let plan : Plan := { command := .list 2, config := { dbPath := "a.db".toList }, events := [] }
    ofJson sample.toJson = .ok sample ∧ '\n' ∉ sample.toJson ∧
      Plan.make s₂.args s₂.environment = .ok plan ∧ plan.command = .list 2 ∧
      ∃ ts : List Transfer, ts.length = 2 ∧
        (splitLines (Text.Utf8.encode (Program.run s₂).output)).mapM ofLine? =
          some (ts.map Transfer.row) := by
  intro s₁ s₂ plan
  obtain ⟨hrow, -, hlist⟩ := rows_take_lines
  obtain ⟨-, hread, -, hnewline⟩ := hrow sample
  have hplan : Plan.make s₂.args s₂.environment = .ok plan := by rfl
  have hcommand : plan.command = .list 2 := rfl
  -- What is stored can be evaluated, and what is listed of it follows.
  have hlists : Program.Lists s₂ plan { path := Text.Utf8.encode "a.db".toList }
      (Place.shorten s₁.directory.home (Text.Utf8.encode "a.db".toList)) 2 :=
    { planned := hplan
      command := hcommand
      valid := by decide
      location := by rfl
      found := by decide +kernel }
  have hstored : (Database.openAt plan.config.dbPath s₂.directory).result.toOption.map
      (fun db => db.table.rows) =
        some ([sampleTransfer 1 5, sampleTransfer 3 0, sampleTransfer 4 8].map Cells.ofTransfer) := by
    decide +kernel
  obtain ⟨db, hdb, hrows⟩ := Option.map_eq_some_iff.1 hstored
  have hopen : (Database.openAt plan.config.dbPath s₂.directory).result = .ok db := by
    cases h : (Database.openAt plan.config.dbPath s₂.directory).result with
    | error why => simp [h, Except.toOption] at hdb
    | ok db' => simpa [h, Except.toOption] using hdb
  obtain ⟨hcode, -, hshown⟩ := Program.list_spec hlists rfl hopen hrows
  have hlength : (Program.run s₂).lines.length = 2 := by
    rw [hshown, List.length_map, List.length_take, List.length_mergeSort]
    rfl
  refine ⟨hread, hnewline, hplan, hcommand, ?_⟩
  rcases hlist s₂ plan 2 hplan hcommand with ⟨hfails, -⟩ | ⟨ts, -, -, hrows, -, hlines⟩
  · rw [hcode] at hfails
    cases hfails
  · rw [hrows, List.length_map] at hlength
    exact ⟨ts, hlength, hlines⟩

end TransferLedger
