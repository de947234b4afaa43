import Mathlib.Tactic
import TransferLedger.Proofs.FirstFault
import TransferLedger.Proofs.RowOrder
import TransferLedger.Proofs.SnapshotFile
import TransferLedger.Proofs.Storable

/-!
# Reading rows of any content

A row holds a transfer when every column has its type and can be read. Otherwise the first column of
another type is at fault or, if there is none, the first one that cannot be read.

* `Cells.Holds`: the transfer that a row holds;
* `Cells.Mistyped`, `Cells.Unreadable`, `Cells.IsWrong`: what is wrong with a row;
* `Cells.examines_toTransfer`: a row gives its transfer, or what is wrong with it;
* `Table.recent_spec`: a listing gives the transfers of the first rows, or what is wrong with the
  first row that holds none.
-/

namespace TransferLedger

open Transfer (Field)

/-! ### What a row holds -/

/-- A cell has the type of a column: an integer or a text, or nothing where that may be. -/
def Cell.Fits (f : Field) : Cell → Prop
  | .null => Schema.isRequired f = false
  | .integer _ => Schema.isNumber f = true
  | .text _ => Schema.isNumber f = false

/-- How many bytes the text in a column stands for, in a column of byte strings. -/
def Transfer.Field.width : Field → Option ℕ
  | .txHash => some 32
  | .token | .sender | .receiver => some 20
  | .logIndex | .blockNumber | .amount => none

/-- The integers that a cell may hold can be compared. -/
instance (c : Cell) : Decidable c.IsStored :=
  match c with
  | .integer v => inferInstanceAs (Decidable (-(storedMax : ℤ) - 1 ≤ v ∧ v ≤ storedMax))
  | .null | .text _ => isTrue trivial

instance (r : Cells) : Decidable r.IsStored :=
  decidable_of_iff (∀ f ∈ Field.all, (r.get f).IsStored)
    ⟨fun h f => h f f.mem_all, fun h f _ => h f⟩

namespace Cells

variable {r : Cells} {f : Field}

/-- The transfer that a row holds. -/
structure Holds (r : Cells) (t : Transfer) : Prop where
  txHash : ∃ s, r.txHash = .text s ∧ Hex.decode 32 s = .ok t.txHash
  logIndex : r.logIndex = .integer t.logIndex.toNat
  blockNumber : r.blockNumber = .integer t.blockNumber.toNat
  token : ∃ s, r.token = .text s ∧ Hex.decode 20 s = .ok t.token
  sender : ∃ s, r.sender = .text s ∧ Hex.decode 20 s = .ok t.sender
  receiver : r.receiver = .null ∧ t.receiver = none ∨
    ∃ s a, r.receiver = .text s ∧ Hex.decode 20 s = .ok a ∧ t.receiver = some a
  amount : ∃ s, r.amount = .text s ∧ Amount.parse s = .ok t.amount

/-- A column holds something of another type, which is told with the column's position. -/
inductive Mistyped (r : Cells) : Field → DatabaseFault → Prop
  | column {f : Field} {i : ℕ} (place : Field.all[i]? = some f) (misfit : ¬(r.get f).Fits f) :
      Mistyped r f (.columnType (r.get f).kind i f.name)

/-- The content of a column cannot be read: a text that is no byte string of the right length, a
number below zero, or a text that is no amount. -/
inductive Unreadable (r : Cells) : Field → Corruption → Prop
  | bytes {f : Field} {n : ℕ} {s : List Char} {why : Hex.Fault} (width : f.width = some n)
      (text : r.get f = .text s) (refused : Hex.decode n s = .error why) :
      Unreadable r f (.hex f why)
  | number {f : Field} {v : ℤ} (number : Schema.isNumber f = true)
      (integer : r.get f = .integer v) (negative : v < 0) : Unreadable r f (.belowZero f)
  | amount {s : List Char} {why : Amount.Fault} (text : r.get .amount = .text s)
      (refused : Amount.parse s = .error why) : Unreadable r .amount (.amount why)

/-- What is wrong with a row. The types of all columns come before the content of any. -/
inductive IsWrong (r : Cells) : StoreError → Prop
  | type {why : DatabaseFault} (first : IsFirstFault r.Mistyped Field.all why) :
      IsWrong r (.database why)
  | content {why : Corruption} (fit : ∀ f, (r.get f).Fits f)
      (first : IsFirstFault r.Unreadable Field.all why) : IsWrong r (.corrupt why)

end Cells

/-- A column stands at one position. -/
theorem Transfer.Field.place_unique {f : Field} {i j : ℕ} (hi : all[i]? = some f)
    (hj : all[j]? = some f) : i = j := by
  have hlt : i < all.length := (List.getElem?_eq_some_iff.1 hi).1
  exact (List.getElem?_inj hlt (by decide)).1 (hi.trans hj.symm)

namespace Cells

variable {r : Cells} {f : Field}

theorem Mistyped.unique {why other : DatabaseFault} (h : r.Mistyped f why)
    (ho : r.Mistyped f other) : why = other := by
  cases h with
  | column hi =>
    cases ho with
    | column hj => rw [Field.place_unique hi hj]

theorem unreadable_bytes_iff {n : ℕ} {s : List Char} {why : Corruption}
    (hwidth : f.width = some n) (htext : r.get f = .text s) :
    r.Unreadable f why ↔ ∃ fault, Hex.decode n s = .error fault ∧ why = .hex f fault := by
  constructor
  · intro h
    cases h with
    | bytes hwidth' htext' hrefused =>
      obtain rfl := Option.some.inj (hwidth.symm.trans hwidth')
      obtain rfl := Cell.text.inj (htext.symm.trans htext')
      exact ⟨_, hrefused, rfl⟩
    | number _ hinteger => exact absurd (htext.symm.trans hinteger) (by simp)
    | amount => cases hwidth
  · rintro ⟨fault, hrefused, rfl⟩
    exact .bytes hwidth htext hrefused

theorem unreadable_number_iff {v : ℤ} {why : Corruption} (hnumber : Schema.isNumber f = true)
    (hinteger : r.get f = .integer v) : r.Unreadable f why ↔ v < 0 ∧ why = .belowZero f := by
  constructor
  · intro h
    cases h with
    | bytes _ htext => exact absurd (htext.symm.trans hinteger) (by simp)
    | number _ hinteger' hnegative =>
      obtain rfl := Cell.integer.inj (hinteger.symm.trans hinteger')
      exact ⟨hnegative, rfl⟩
    | amount => cases hnumber
  · rintro ⟨hnegative, rfl⟩
    exact .number hnumber hinteger hnegative

theorem unreadable_amount_iff {s : List Char} {why : Corruption} (htext : r.amount = .text s) :
    r.Unreadable .amount why ↔ ∃ fault, Amount.parse s = .error fault ∧ why = .amount fault := by
  constructor
  · intro h
    cases h with
    | bytes hwidth => cases hwidth
    | number hnumber => cases hnumber
    | amount htext' hrefused =>
      obtain rfl := Cell.text.inj (htext.symm.trans htext')
      exact ⟨_, hrefused, rfl⟩
  · rintro ⟨fault, hrefused, rfl⟩
    exact .amount htext hrefused

/-- A column without content cannot be unreadable. -/
theorem not_unreadable_of_null (hnull : r.get f = .null) (why : Corruption) :
    ¬r.Unreadable f why := by
  intro h
  cases h with
  | bytes _ htext => exact absurd (hnull.symm.trans htext) (by simp)
  | number _ hinteger => exact absurd (hnull.symm.trans hinteger) (by simp)
  | amount htext => exact absurd (hnull.symm.trans htext) (by simp)

theorem Unreadable.unique {why other : Corruption} (h : r.Unreadable f why)
    (ho : r.Unreadable f other) : why = other := by
  cases h with
  | bytes hwidth htext hrefused =>
    obtain ⟨fault, hfault, rfl⟩ := (unreadable_bytes_iff hwidth htext).1 ho
    rw [Except.error.inj (hrefused.symm.trans hfault)]
  | number hnumber hinteger =>
    obtain ⟨-, rfl⟩ := (unreadable_number_iff hnumber hinteger).1 ho
    rfl
  | amount htext hrefused =>
    obtain ⟨fault, hfault, rfl⟩ := (unreadable_amount_iff htext).1 ho
    rw [Except.error.inj (hrefused.symm.trans hfault)]

/-- When all columns have their types, none has another one. -/
theorem not_isFirstFault_mistyped (hfit : ∀ f, (r.get f).Fits f) {why : DatabaseFault} :
    ¬IsFirstFault r.Mistyped Field.all why := by
  intro hfirst
  obtain ⟨f, -, _, hmistyped⟩ := exists_isFirstFault_iff.1 ⟨why, hfirst⟩
  cases hmistyped with
  | column _ hmisfit => exact hmisfit (hfit f)

theorem IsWrong.unique {why other : StoreError} (h : r.IsWrong why) (ho : r.IsWrong other) :
    why = other := by
  cases h with
  | type hfirst =>
    cases ho with
    | type hfirst' => rw [hfirst.unique (fun _ _ _ h h' => h.unique h') hfirst']
    | content hfit => exact absurd hfirst (not_isFirstFault_mistyped hfit)
  | content hfit hfirst =>
    cases ho with
    | type hfirst' => exact absurd hfirst' (not_isFirstFault_mistyped hfit)
    | content _ hfirst' => rw [hfirst.unique (fun _ _ _ h h' => h.unique h') hfirst']

/-- The report of a column that cannot be read names it. -/
theorem Unreadable.message {why : Corruption} (h : r.Unreadable f why) :
    ∃ detail : String, (StoreError.corrupt why).message = s!"Corrupt row: {f.name}: {detail}" := by
  have hwhy : ∃ detail : String, why.message = s!"{f.name}: {detail}" := by
    cases h with
    | bytes => exact ⟨_, rfl⟩
    | number => exact ⟨"number too small to fit in target type", by cases f <;> rfl⟩
    | amount => exact ⟨_, rfl⟩
  obtain ⟨detail, hdetail⟩ := hwhy
  have hrow : (StoreError.corrupt why).message = "Corrupt row: " ++ why.message := rfl
  exact ⟨detail, by simp only [hrow, hdetail, String.append_assoc, toString]⟩

/-! ### The types of the columns -/

theorem mistyped_wrongType (hmisfit : ¬(r.get f).Fits f) : r.Mistyped f (r.wrongType f) :=
  .column (by cases f <;> rfl) hmisfit

theorem not_mistyped (hfits : (r.get f).Fits f) (why : DatabaseFault) : ¬r.Mistyped f why := by
  rintro ⟨-, hmisfit⟩
  exact hmisfit hfits

theorem examines_textIn (hnumber : Schema.isNumber f = false)
    (hrequired : Schema.isRequired f = true) :
    Examines r.Mistyped [f] (fun s => r.get f = .text s) (r.textIn f) := by
  unfold textIn
  cases hget : r.get f with
  | text s => exact .ofGood rfl (not_mistyped (by rw [hget]; exact hnumber))
  | null => exact .ofFault (mistyped_wrongType (by simp [hget, Cell.Fits, hrequired]))
  | integer v => exact .ofFault (mistyped_wrongType (by simp [hget, Cell.Fits, hnumber]))

theorem examines_integerIn (hnumber : Schema.isNumber f = true)
    (hrequired : Schema.isRequired f = true) :
    Examines r.Mistyped [f] (fun v => r.get f = .integer v) (r.integerIn f) := by
  unfold integerIn
  cases hget : r.get f with
  | integer v => exact .ofGood rfl (not_mistyped (by rw [hget]; exact hnumber))
  | null => exact .ofFault (mistyped_wrongType (by simp [hget, Cell.Fits, hrequired]))
  | text s => exact .ofFault (mistyped_wrongType (by simp [hget, Cell.Fits, hnumber]))

theorem examines_optionalTextIn (hnumber : Schema.isNumber f = false)
    (hrequired : Schema.isRequired f = false) :
    Examines r.Mistyped [f] (fun s => r.get f = s.elim .null .text) (r.optionalTextIn f) := by
  unfold optionalTextIn
  cases hget : r.get f with
  | text s => exact .ofGood rfl (not_mistyped (by rw [hget]; exact hnumber))
  | null => exact .ofGood rfl (not_mistyped (by rw [hget]; exact hrequired))
  | integer v => exact .ofFault (mistyped_wrongType (by simp [hget, Cell.Fits, hnumber]))

end Cells

/-- The cells of a row whose columns have their types. -/
def TypedRow.cells (row : TypedRow) : Cells where
  txHash := .text row.txHash
  logIndex := .integer row.logIndex
  blockNumber := .integer row.blockNumber
  token := .text row.token
  sender := .text row.sender
  receiver := row.receiver.elim .null .text
  amount := .text row.amount

/-- A row is read from columns of the right types, or the first one of another type is told. -/
theorem Cells.examines_typed (r : Cells) :
    Examines r.Mistyped Field.all (fun row : TypedRow => r = row.cells) r.typed := by
  refine (examines_textIn rfl rfl).bind fun txHash htxHash => ?_
  refine (examines_integerIn rfl rfl).bind fun logIndex hlogIndex => ?_
  refine (examines_integerIn rfl rfl).bind fun blockNumber hblockNumber => ?_
  refine (examines_textIn rfl rfl).bind fun token htoken => ?_
  refine (examines_textIn rfl rfl).bind fun sender hsender => ?_
  refine (examines_optionalTextIn rfl rfl).bind fun receiver hreceiver => ?_
  refine (examines_textIn rfl rfl).bind fun amount hamount => ?_
  refine ⟨?_, by simp⟩
  simp only [get] at htxHash hlogIndex hblockNumber htoken hsender hreceiver hamount
  simp [TypedRow.cells, ← htxHash, ← hlogIndex, ← hblockNumber, ← htoken, ← hsender, ← hreceiver,
    ← hamount]

theorem TypedRow.fits_cells (row : TypedRow) (f : Field) : (row.cells.get f).Fits f := by
  cases f with
  | receiver =>
    obtain ⟨_, _, _, _, _, receiver, _⟩ := row
    cases receiver <;> rfl
  | _ => rfl

/-! ### The content of the columns -/

namespace TypedRow

variable {r : Cells} {f : Field} {n : ℕ} {s : List Char} {v : ℤ}

theorem examines_bytes (hwidth : f.width = some n) (htext : r.get f = .text s) :
    Examines r.Unreadable [f] (fun b => Hex.decode n s = .ok b) (bytes n f s) := by
  have hiff : ∀ why, r.Unreadable f why ↔ _ := fun _ => Cells.unreadable_bytes_iff hwidth htext
  unfold bytes
  cases hread : Hex.decode n s with
  | error fault => exact .ofFault ((hiff _).2 ⟨fault, hread, rfl⟩)
  | ok b => exact .ofGood rfl fun why hwrong => by simpa [hread] using (hiff why).1 hwrong

theorem examines_word (hnumber : Schema.isNumber f = true) (hinteger : r.get f = .integer v)
    (hv : (Cell.integer v).IsStored) :
    Examines r.Unreadable [f] (fun w => v = w.toNat) (word f v) := by
  have hiff : ∀ why, r.Unreadable f why ↔ _ :=
    fun _ => Cells.unreadable_number_iff hnumber hinteger
  have hbound : (storedMax : ℤ) = 9223372036854775807 := by decide
  have hmax := hv.2
  unfold word
  split
  · rename_i hnegative
    exact .ofFault ((hiff _).2 ⟨hnegative, rfl⟩)
  · rename_i hnonneg
    refine .ofGood ?_ fun why hwrong => hnonneg ((hiff why).1 hwrong).1
    rw [UInt64.toNat_ofNat']
    omega

theorem examines_optionalBytes {s : Option (List Char)} (hwidth : f.width = some n)
    (htext : r.get f = s.elim .null .text) :
    Examines r.Unreadable [f] (fun b => s = none ∧ b = none ∨
      ∃ t a, s = some t ∧ Hex.decode n t = .ok a ∧ b = some a) (optionalBytes n f s) := by
  cases s with
  | none => exact .ofGood (.inl ⟨rfl, rfl⟩) (Cells.not_unreadable_of_null htext)
  | some s =>
    have hbytes := examines_bytes hwidth htext
    simp only [optionalBytes]
    cases hread : bytes n f s with
    | error why =>
      rw [hread] at hbytes
      exact hbytes
    | ok b =>
      rw [hread] at hbytes
      exact ⟨.inr ⟨s, b, rfl, hbytes.1, rfl⟩, hbytes.2⟩

theorem examines_amountIn (htext : r.amount = .text s) :
    Examines r.Unreadable [.amount] (fun a => Amount.parse s = .ok a) (amountIn s) := by
  have hiff : ∀ why, r.Unreadable .amount why ↔ _ := fun _ => Cells.unreadable_amount_iff htext
  unfold amountIn
  cases hread : Amount.parse s with
  | error fault => exact .ofFault ((hiff _).2 ⟨fault, hread, rfl⟩)
  | ok a => exact .ofGood rfl fun why hwrong => by simpa [hread] using (hiff why).1 hwrong

/-- Columns of the right types give a transfer, or the first one that cannot be read. -/
theorem examines_toTransfer {row : TypedRow} (h : row.cells.IsStored) :
    Examines row.cells.Unreadable Field.all row.cells.Holds row.toTransfer := by
  refine (examines_bytes rfl rfl).bind fun txHash htxHash => ?_
  refine (examines_word rfl rfl (h .logIndex)).bind fun logIndex hlogIndex => ?_
  refine (examines_word rfl rfl (h .blockNumber)).bind fun blockNumber hblockNumber => ?_
  refine (examines_bytes rfl rfl).bind fun token htoken => ?_
  refine (examines_bytes rfl rfl).bind fun sender hsender => ?_
  refine (examines_optionalBytes rfl rfl).bind fun receiver hreceiver => ?_
  refine (examines_amountIn rfl).bind fun amount hamount => ?_
  refine ⟨?_, by simp⟩
  exact {
    txHash := ⟨_, rfl, htxHash⟩
    logIndex := congrArg Cell.integer hlogIndex
    blockNumber := congrArg Cell.integer hblockNumber
    token := ⟨_, rfl, htoken⟩
    sender := ⟨_, rfl, hsender⟩
    receiver := hreceiver.imp (fun h => ⟨by simp [cells, h.1], h.2⟩)
      fun ⟨t, a, ht, ha⟩ => ⟨t, a, by simp [cells, ht], ha⟩
    amount := ⟨_, rfl, hamount⟩ }

end TypedRow

/-! ### Rows -/

namespace Cells

variable {r : Cells} {rows : List Cells}

/-- A row gives the transfer that it holds, or what is wrong with it. -/
theorem examines_toTransfer (h : r.IsStored) :
    Examines IsWrong [r] r.Holds r.toTransfer := by
  have htyped := examines_typed r
  unfold toTransfer
  cases hread : r.typed with
  | error why =>
    rw [hread] at htyped
    exact .ofFault (.type htyped)
  | ok row =>
    rw [hread] at htyped
    obtain ⟨rfl, -⟩ := htyped
    have hcontent := TypedRow.examines_toTransfer h
    dsimp only
    cases hread : row.toTransfer with
    | error why =>
      rw [hread] at hcontent
      exact .ofFault (.content row.fits_cells hcontent)
    | ok t =>
      rw [hread] at hcontent
      refine .ofGood hcontent.1 fun why hwrong => ?_
      cases hwrong with
      | type hfirst => exact not_isFirstFault_mistyped row.fits_cells hfirst
      | content _ hfirst =>
        obtain ⟨f, hf, _, hbad⟩ := exists_isFirstFault_iff.1 ⟨_, hfirst⟩
        exact hcontent.2 f hf _ hbad

/-- Rows give the transfers that they hold, or what is wrong with the first that holds none. -/
theorem examines_readAll (h : ∀ r ∈ rows, r.IsStored) :
    Examines IsWrong rows (List.Forall₂ Holds rows) (Table.readAll rows) := by
  induction rows with
  | nil => exact ⟨.nil, by simp⟩
  | cons r rows ih =>
    obtain ⟨hr, hrows⟩ := List.forall_mem_cons.1 h
    have hreadAll : Table.readAll (r :: rows) =
        r.toTransfer >>= fun t => (Table.readAll rows).map (t :: ·) := by
      rw [Table.readAll]
      cases r.toTransfer with
      | error why => rfl
      | ok t => cases Table.readAll rows <;> rfl
    rw [hreadAll]
    refine (examines_toTransfer hr).bind fun t ht => ?_
    have hrest := ih hrows
    cases hread : Table.readAll rows with
    | error why =>
      rw [hread] at hrest
      exact hrest
    | ok ts =>
      rw [hread] at hrest
      exact ⟨.cons ht hrest.1, hrest.2⟩

/-- A row holds one transfer at most, and reads as that. -/
theorem toTransfer_of_holds {t : Transfer} (h : r.Holds t) : r.toTransfer = .ok t := by
  obtain ⟨txHash, logIndex, blockNumber, token, sender, receiver, amount⟩ := r
  obtain ⟨txHash', logIndex', blockNumber', token', sender', receiver', amount'⟩ := t
  obtain ⟨⟨s, rfl, hs⟩, rfl, rfl, ⟨s', rfl, hs'⟩, ⟨s'', rfl, hs''⟩, hreceiver, ⟨a, rfl, ha⟩⟩ := h
  have hword : ∀ (f : Field) (n : UInt64), TypedRow.word f n.toNat = .ok n := by
    intro f n
    simp [TypedRow.word]
  rcases hreceiver with ⟨rfl, rfl⟩ | ⟨s, b, rfl, hb, rfl⟩
  · simp [toTransfer, typed, textIn, integerIn, optionalTextIn, get, TypedRow.toTransfer,
      TypedRow.bytes, TypedRow.optionalBytes, TypedRow.amountIn, hword, hs, hs', hs'', ha, bind,
      Except.bind, pure, Except.pure]
  · simp [toTransfer, typed, textIn, integerIn, optionalTextIn, get, TypedRow.toTransfer,
      TypedRow.bytes, TypedRow.optionalBytes, TypedRow.amountIn, hword, hs, hs', hs'', ha, hb, bind,
      Except.bind, pure, Except.pure]

end Cells

/-! ### Listings -/

namespace Table

open Cells (Holds IsWrong)

variable {rows : List Cells} {ts : List Transfer} {error : StoreError}

theorem readAll_eq_ok_iff (h : ∀ r ∈ rows, r.IsStored) :
    readAll rows = .ok ts ↔ List.Forall₂ Holds rows ts := by
  constructor
  · intro hread
    have hexamines := Cells.examines_readAll h
    rw [hread] at hexamines
    exact hexamines.1
  · intro hholds
    induction hholds with
    | nil => rfl
    | cons hr _ ih =>
      rw [readAll, Cells.toTransfer_of_holds hr]
      simp only [ih (List.forall_mem_cons.1 h).2]

theorem readAll_eq_error_iff (h : ∀ r ∈ rows, r.IsStored) :
    readAll rows = .error error ↔ IsFirstFault IsWrong rows error :=
  (Cells.examines_readAll h).eq_error_iff fun _ _ _ hwhy hother => hwhy.unique hother

/-- Rows are read when each of them holds some transfer. -/
theorem exists_readAll_eq_ok_iff (h : ∀ r ∈ rows, r.IsStored) :
    (∃ ts, readAll rows = .ok ts) ↔ ∀ r ∈ rows, ∃ t, r.Holds t := by
  have hexamines := Cells.examines_readAll h
  constructor
  · rintro ⟨ts, hread⟩ r hr
    obtain ⟨i, hi, rfl⟩ := List.getElem_of_mem hr
    have hholds := (readAll_eq_ok_iff h).1 hread
    exact ⟨_, hholds.get hi (hholds.length_eq ▸ hi)⟩
  · intro hall
    cases hread : readAll rows with
    | ok ts => exact ⟨ts, rfl⟩
    | error why =>
      -- Some row would be at fault, which holds a transfer and so reads.
      obtain ⟨r, hr, why, hwrong⟩ :=
        exists_isFirstFault_iff.1 ⟨why, (readAll_eq_error_iff h).1 hread⟩
      obtain ⟨t, ht⟩ := hall r hr
      have hreads := Cells.examines_toTransfer (h r hr)
      rw [Cells.toTransfer_of_holds ht] at hreads
      exact absurd hwrong (hreads.2 r List.mem_cons_self why)

/-- **A listing gives the transfers of the first rows, or the fault of the first bad one.** The rows
of a table, of any content, have one order. A listing succeeds when each row within its limit holds
a transfer, and gives these in the order of the rows. Otherwise it gives what is wrong with the
first row within the limit that holds none: its first column of another type or, if there is none,
its first one that cannot be read, by name. Rows beyond the limit may be left out, and a lower limit
gives the first ones of the same transfers. -/
theorem recent_reads_or_faults {table : Table} (h : ∀ r ∈ table.rows, r.IsStored) :
    ∃ listed, (∀ other, table.IsInOrder other ↔ other = listed) ∧ ∀ limit,
      (∀ ts, recent limit table = .ok ts ↔ List.Forall₂ Holds (listed.take limit) ts) ∧
      ((∃ ts, recent limit table = .ok ts) ↔ ∀ r ∈ listed.take limit, ∃ t, r.Holds t) ∧
      (∀ error, recent limit table = .error error ↔
        IsFirstFault IsWrong (listed.take limit) error) ∧
      (∀ r f why, Cells.Unreadable r f why →
        ∃ detail : String, (StoreError.corrupt why).message = s!"Corrupt row: {f.name}: {detail}") ∧
      (∀ p : Cells → Bool, (∀ r ∈ listed.take limit, p r = true) →
        recent limit ⟨table.rows.filter p⟩ = recent limit table) ∧
      ∀ ts, recent limit table = .ok ts → ∀ j ≤ limit, recent j table = .ok (ts.take j) := by
  refine ⟨table.listing, fun other => isInOrder_iff, fun limit => ?_⟩
  have hfirst : ∀ limit, ∀ r ∈ table.listing.take limit, r.IsStored := fun limit r hr =>
    h r ((List.mergeSort_perm table.rows newerOrSame).subset (List.mem_of_mem_take hr))
  refine ⟨fun ts => readAll_eq_ok_iff (hfirst limit), exists_readAll_eq_ok_iff (hfirst limit),
    fun error => readAll_eq_error_iff (hfirst limit), fun r f why hwhy => hwhy.message,
    fun p hp => ?_, fun ts hts j hj => ?_⟩
  · exact congrArg readAll (take_mergeSort_filter isRanking_newerOrSame hp)
  · have htake := List.forall₂_take j ((readAll_eq_ok_iff (hfirst limit)).1 hts)
    rw [List.take_take, Nat.min_eq_left hj] at htake
    exact (readAll_eq_ok_iff (hfirst j)).2 htake

theorem recent_reads_or_faults_on_sample :
    let good := Cells.ofTransfer (sampleTransfer 1 5)
    let rows : List Cells :=
      [Cells.ofTransfer (sampleTransfer 2 6), good,
        { good with logIndex := .integer (-1), token := .text [] }]
    let mistyped := { good with txHash := .text ['x'], blockNumber := .text ['y'] }
    (∀ r ∈ mistyped :: rows, r.IsStored) ∧
      recent 1 ⟨mistyped :: rows⟩ =
        .error (.database (.columnType "Text" 2 "block_number")) ∧
      recent 3 ⟨rows⟩ = .error (.corrupt (.belowZero .logIndex)) ∧
      recent 2 ⟨rows⟩ = .ok [sampleTransfer 2 6, sampleTransfer 1 5] ∧
      recent 1 ⟨rows⟩ = .ok [sampleTransfer 2 6] := by
  intro good rows mistyped
  have hstored : ∀ r ∈ mistyped :: rows, r.IsStored := by decide +kernel
  -- These rows stand in the order of a listing already.
  have hall : listing ⟨mistyped :: rows⟩ = mistyped :: rows :=
    List.mergeSort_of_pairwise (by decide +kernel)
  have hlisting : listing ⟨rows⟩ = rows := List.mergeSort_of_pairwise (by decide +kernel)
  obtain ⟨listed, -, hlisted⟩ := recent_reads_or_faults (List.forall_mem_cons.1 hstored).2
  have htwo : recent 2 ⟨rows⟩ = .ok [sampleTransfer 2 6, sampleTransfer 1 5] := by
    rw [recent, hlisting]
    decide +kernel
  have hone := (hlisted 2).2.2.2.2.2 _ htwo 1 (by decide)
  refine ⟨hstored, ?_, ?_, htwo, hone⟩
  · rw [recent, hall]
    decide +kernel
  · rw [recent, hlisting]
    decide +kernel

end Table

end TransferLedger
