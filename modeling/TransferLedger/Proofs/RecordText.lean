import Mathlib.Tactic
import TransferLedger.Proofs.FormText
import TransferLedger.Proofs.HexText
import TransferLedger.Row.Json
import TransferLedger.Transfer.Json

/-!
# Transfers and rows read back from their texts

* `Transfer.ofJson_toJson`, `Row.ofJson_toJson`: a text with white space around it reads back;
* `Transfer.isPrintable_toJson`, `Row.isPrintable_toJson`: a text has no control characters, so it
  takes one line.
-/

namespace TransferLedger

open Json

/-- The digits of a number are no control characters. -/
theorem Decimal.isPrintable_ofNat (n : ℕ) : IsPrintable (ofNat n) :=
  isPrintable_digits (isCanonical_ofNat n).2.1

theorem Json.isPrintable_optionalText {α : Type} {text : α → List Char}
    (h : ∀ a, IsPrintable (text a)) (o : Option α) : IsPrintable (optionalText text o) := by
  cases o with
  | none => exact show IsPrintable ['n', 'u', 'l', 'l'] by decide
  | some a => exact h a

/-! ### Transfers -/

namespace Transfer

/-- The text of the value of a field. -/
def valueText (t : Transfer) : Field → List Char
  | .txHash => quote (Hex.encode t.txHash.toList)
  | .logIndex => Decimal.ofNat t.logIndex.toNat
  | .blockNumber => Decimal.ofNat t.blockNumber.toNat
  | .token => quote (Hex.encode t.token.toList)
  | .sender => quote (Hex.encode t.sender.toList)
  | .receiver => optionalText (fun a => quote (Hex.encode a.toList)) t.receiver
  | .amount => quote t.amount.toText

theorem toJson_eq (t : Transfer) :
    t.toJson = object (form.membersOf (Field.all.map fun f => (f, t.valueText f))) := rfl

theorem named_name (f : Field) : form.named (form.name f).toList = some f := by
  cases f <;> decide

/-- A byte string is read from its text. -/
theorem bytes_quote {n : ℕ} (b : Bytes n) (r : List Char) :
    Draft.bytes n (quote (Hex.encode b.toList) ++ r) = .ok (b, r) :=
  refusing_of_ok (string_quote _ r) (Hex.decode_encode b)

theorem optionalBytes_text {n : ℕ} (o : Option (Bytes n)) (r : List Char) :
    Draft.optionalBytes n (optionalText (fun a => quote (Hex.encode a.toList)) o ++ r) =
      .ok (o, r) := by
  have htext : optionalText (fun a : Bytes n => quote (Hex.encode a.toList)) o =
      optionalText quote (o.map fun a => Hex.encode a.toList) := by
    cases o <;> rfl
  rw [htext]
  refine refusing_of_ok (optional_string _ r) ?_
  cases o with
  | none => rfl
  | some b => exact congrArg (Except.map some) (Hex.decode_encode b)

theorem amountText_quote (a : Amount) (r : List Char) :
    Draft.amountText (quote a.toText ++ r) = .ok (a, r) :=
  refusing_of_ok (string_quote _ r) a.parse_toText

/-- The draft of a transfer. -/
def draft (t : Transfer) : Draft where
  txHash := some t.txHash
  logIndex := some t.logIndex
  blockNumber := some t.blockNumber
  token := some t.token
  sender := some t.sender
  receiver := some t.receiver
  amount := some t.amount

/-- The values of a transfer fill its draft. -/
theorem fills (t : Transfer) :
    form.Fills form.blank (Field.all.map fun f => (f, t.valueText f)) t.draft := by
  refine .cons (named_name _) rfl (fun r _ => mapping_of_ok _ (bytes_quote t.txHash r)) ?_
  refine .cons (named_name _) rfl (fun r hr => mapping_of_ok _ (word_digits t.logIndex hr)) ?_
  refine .cons (named_name _) rfl (fun r hr => mapping_of_ok _ (word_digits t.blockNumber hr)) ?_
  refine .cons (named_name _) rfl (fun r _ => mapping_of_ok _ (bytes_quote t.token r)) ?_
  refine .cons (named_name _) rfl (fun r _ => mapping_of_ok _ (bytes_quote t.sender r)) ?_
  refine .cons (named_name _) rfl (fun r _ => mapping_of_ok _ (optionalBytes_text t.receiver r)) ?_
  refine .cons (named_name _) rfl (fun r _ => mapping_of_ok _ (amountText_quote t.amount r)) ?_
  exact .nil _

/-- The text of a transfer reads back, with white space around it. -/
theorem ofJson_spaced (t : Transfer) (front behind : List Char)
    (hfront : ∀ c ∈ front, isSpace c = true) (hbehind : ∀ c ∈ behind, isSpace c = true) :
    ofJson (front ++ t.toJson ++ behind) = .ok t :=
  Form.decode_object t.fills rfl hfront hbehind

theorem ofJson_toJson (t : Transfer) : ofJson t.toJson = .ok t := by
  simpa using t.ofJson_spaced [] [] (by simp) (by simp)

theorem isPrintable_valueText (t : Transfer) (f : Field) : IsPrintable (t.valueText f) := by
  cases f with
  | logIndex | blockNumber => exact Decimal.isPrintable_ofNat _
  | receiver => exact isPrintable_optionalText (fun a => isPrintable_quote _) t.receiver
  | txHash | token | sender | amount => exact isPrintable_quote _

theorem isPrintable_toJson (t : Transfer) : IsPrintable t.toJson :=
  form.isPrintable_membersOf t.isPrintable_valueText Field.all

end Transfer

/-! ### Rows -/

namespace Row

/-- The text of the value of a column. -/
def valueText (row : Row) : Field → List Char
  | .txHash => quote row.txHash
  | .logIndex => Decimal.ofNat row.logIndex.toNat
  | .blockNumber => Decimal.ofNat row.blockNumber.toNat
  | .token => quote row.token
  | .sender => quote row.sender
  | .receiver => optionalText quote row.receiver
  | .amount => quote row.amount
  | .direction => row.direction.toJson

theorem toJson_eq (row : Row) :
    row.toJson = object (form.membersOf (Field.all.map fun f => (f, row.valueText f))) := rfl

theorem named_name (f : Field) : form.named (form.name f).toList = some f := by
  cases f <;> decide

/-- A direction is read from its name. -/
theorem direction_read (d : Direction) (r : List Char) :
    Direction.read (d.toJson ++ r) = .ok (d, r) := by
  have hname : Direction.ofText d.name.toList = .ok d := by
    cases d <;> decide
  show Direction.read ('"' :: (d.name.toList.flatMap escape ++ ['"'] ++ r)) = _
  rw [List.append_assoc, List.singleton_append, Direction.read, skipSpace_cons (by rfl)]
  simp only [if_true, readText_quote, hname]

/-- The draft of a row. -/
def draft (row : Row) : Draft where
  txHash := some row.txHash
  logIndex := some row.logIndex
  blockNumber := some row.blockNumber
  token := some row.token
  sender := some row.sender
  receiver := some row.receiver
  amount := some row.amount
  direction := some row.direction

/-- The values of a row fill its draft. -/
theorem fills (row : Row) :
    form.Fills form.blank (Field.all.map fun f => (f, row.valueText f)) row.draft := by
  refine .cons (named_name _) rfl (fun r _ => mapping_of_ok _ (string_quote row.txHash r)) ?_
  refine .cons (named_name _) rfl (fun r hr => mapping_of_ok _ (word_digits row.logIndex hr)) ?_
  refine .cons (named_name _) rfl
    (fun r hr => mapping_of_ok _ (word_digits row.blockNumber hr)) ?_
  refine .cons (named_name _) rfl (fun r _ => mapping_of_ok _ (string_quote row.token r)) ?_
  refine .cons (named_name _) rfl (fun r _ => mapping_of_ok _ (string_quote row.sender r)) ?_
  refine .cons (named_name _) rfl (fun r _ => mapping_of_ok _ (optional_string row.receiver r)) ?_
  refine .cons (named_name _) rfl (fun r _ => mapping_of_ok _ (string_quote row.amount r)) ?_
  refine .cons (named_name _) rfl (fun r _ => mapping_of_ok _ (direction_read row.direction r)) ?_
  exact .nil _

/-- The text of a row reads back, with white space around it. -/
theorem ofJson_spaced (row : Row) (front behind : List Char)
    (hfront : ∀ c ∈ front, isSpace c = true) (hbehind : ∀ c ∈ behind, isSpace c = true) :
    ofJson (front ++ row.toJson ++ behind) = .ok row :=
  Form.decode_object row.fills rfl hfront hbehind

theorem ofJson_toJson (row : Row) : ofJson row.toJson = .ok row := by
  simpa using row.ofJson_spaced [] [] (by simp) (by simp)

theorem isPrintable_valueText (row : Row) (f : Field) : IsPrintable (row.valueText f) := by
  cases f with
  | logIndex | blockNumber => exact Decimal.isPrintable_ofNat _
  | receiver => exact isPrintable_optionalText isPrintable_quote row.receiver
  | txHash | token | sender | amount | direction => exact isPrintable_quote _

theorem isPrintable_toJson (row : Row) : IsPrintable row.toJson :=
  form.isPrintable_membersOf row.isPrintable_valueText Field.all

end Row

end TransferLedger
