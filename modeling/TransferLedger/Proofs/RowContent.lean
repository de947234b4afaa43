import Mathlib.Tactic
import TransferLedger.Proofs.HexText
import TransferLedger.Proofs.Numeral
import TransferLedger.Row

/-!
# A row says all of its transfer

The texts of a row are read back by the readers of hashes, addresses and amounts, so that a listing
tells its transfers apart. The direction is told by bytes and a reader sees texts, which comes to the
same, as different addresses have different texts.

* `Row.transfer?`: the transfer that the columns of a row are read as;
* `Transfer.transfer?_row`, `Transfer.mapM_transfer?_rows`: the rows of transfers are read as these;
* `Transfer.receiver_row_iff`: a row shows one account twice when it is one account;
* `Transfer.rows_keep_transfers`: what the rows of transfers tell.
-/

namespace TransferLedger

/-- The transfer that the columns of a row are read as. -/
def Row.transfer? (r : Row) : Option Transfer := do
  let txHash ← (Hex.decode 32 r.txHash).toOption
  let token ← (Hex.decode 20 r.token).toOption
  let sender ← (Hex.decode 20 r.sender).toOption
  let receiver ← r.receiver.mapM fun s => (Hex.decode 20 s).toOption
  let amount ← (Amount.parse r.amount).toOption
  return { txHash, logIndex := r.logIndex, blockNumber := r.blockNumber, token, sender, receiver,
           amount }

namespace Transfer

/-- The row of a transfer is read as the transfer. -/
theorem transfer?_row (t : Transfer) : t.row.transfer? = some t := by
  have hreceiver : t.row.receiver.mapM (fun s => (Hex.decode 20 s).toOption) = some t.receiver := by
    unfold row
    cases t.receiver with
    | none => rfl
    | some a => simp [Hex.decode_encode, Except.toOption]
  rw [Row.transfer?, hreceiver]
  simp [row, Hex.decode_encode, Amount.parse_toText, Except.toOption]

theorem row_injective : Function.Injective row := by
  intro t u h
  have hread : t.row.transfer? = u.row.transfer? := by rw [h]
  rw [transfer?_row, transfer?_row] at hread
  exact Option.some.inj hread

theorem mapM_transfer?_rows (ts : List Transfer) :
    (ts.map row).mapM Row.transfer? = some ts := by
  induction ts with
  | nil => rfl
  | cons t ts ih =>
    rw [List.map_cons, List.mapM_cons, transfer?_row, ih]
    rfl

/-- Sender and receiver are the same account when the row shows them alike. -/
theorem receiver_row_iff (t : Transfer) :
    t.row.receiver = some t.row.sender ↔ t.receiver = some t.sender := by
  show t.receiver.map (fun a => Hex.encode a.toList) = some (Hex.encode t.sender.toList) ↔ _
  rw [Option.map_eq_some_iff]
  constructor
  · rintro ⟨a, ha, h⟩
    rw [ha, Hex.encode_injective h]
  · intro h
    exact ⟨t.sender, h, rfl⟩

/-- **A row says all of its transfer.** The rows of some transfers, one for each in their order, are
read as these transfers, hence different transfers have different rows. The direction of a row is to
oneself exactly when its receiver is there and is the same text as its sender, and that is when the
receiver of the transfer is there and has the bytes of its sender. -/
theorem rows_keep_transfers :
    (∀ ts : List Transfer, (ts.map row).mapM Row.transfer? = some ts) ∧
    (∀ t : Transfer, t.row.transfer? = some t) ∧ Function.Injective row ∧
    ∀ t : Transfer,
      (t.row.direction = .toSelf ↔ ∃ text, t.row.receiver = some text ∧ text = t.row.sender) ∧
      (t.row.direction = .toSelf ↔ ∃ a, t.receiver = some a ∧ a.toList = t.sender.toList) := by
  refine ⟨mapM_transfer?_rows, transfer?_row, row_injective, fun t => ?_⟩
  have hdirection : t.row.direction = .toSelf ↔ t.receiver = some t.sender :=
    Direction.between_eq_toSelf_iff
  rw [hdirection]
  constructor
  · rw [exists_eq_right, receiver_row_iff]
  · constructor
    · intro h
      exact ⟨_, h, rfl⟩
    · rintro ⟨a, ha, h⟩
      rw [ha, Bytes.ext h]

end Transfer

end TransferLedger
