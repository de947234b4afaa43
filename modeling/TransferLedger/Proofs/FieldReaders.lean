import Mathlib.Tactic
import TransferLedger.Proofs.FormLayout
import TransferLedger.Proofs.JsonDatum
import TransferLedger.Transfer.Json

/-!
# What the fields of a transfer are read from

A field of a transfer has values of its own kind, and is read from the texts whose meaning it
accepts. A draft is filled field by field, and a transfer is made of it when only the receiver is
still missing.

* `Transfer.Field.Value`, `Transfer.get`: the values of the fields;
* `Transfer.Field.Accepts`: the value that a field takes from what is written;
* `Transfer.Draft.finish_eq_some_iff`: when a draft makes up a transfer;
* `Transfer.Draft.reader_eq_ok_iff`: a field is read from what it accepts.
-/

namespace TransferLedger.Transfer

open Json

/-! ### Fields and their values -/

/-- The values that a field may have. -/
def Field.Value : Field → Type
  | .txHash => TxHash
  | .logIndex => UInt64
  | .blockNumber => UInt64
  | .token => Address
  | .sender => Address
  | .receiver => Option Address
  | .amount => Amount

/-- The value of a field of a transfer. -/
def get (t : Transfer) : (f : Field) → f.Value
  | .txHash => t.txHash
  | .logIndex => t.logIndex
  | .blockNumber => t.blockNumber
  | .token => t.token
  | .sender => t.sender
  | .receiver => t.receiver
  | .amount => t.amount

/-- A text of hexadecimal digits for a given number of bytes. -/
def IsBytesOf {n : ℕ} (d : Datum) (b : Bytes n) : Prop := ∃ s, d = .text s ∧ Hex.decode n s = .ok b

/-- The value that a field takes from what is written. -/
def Field.Accepts : (f : Field) → Datum → f.Value → Prop
  | .txHash, d, b => IsBytesOf (n := 32) d b
  | .logIndex, d, n => d = .natural (UInt64.toNat n)
  | .blockNumber, d, n => d = .natural (UInt64.toNat n)
  | .token, d, b => IsBytesOf (n := 20) d b
  | .sender, d, b => IsBytesOf (n := 20) d b
  | .receiver, d, o => (d = .null ∧ o = none) ∨ ∃ b : Address, IsBytesOf d b ∧ o = some b
  | .amount, d, a => ∃ s, d = .text s ∧ Amount.parse s = .ok a

/-- The value that a field takes from the text of a value. -/
def Field.Reads (f : Field) (v : List Char) (x : f.Value) : Prop := ∃ d, Means v d ∧ f.Accepts d x

namespace Draft

/-- The value that a field has been given. -/
def get (d : Draft) : (f : Field) → Option f.Value
  | .txHash => d.txHash
  | .logIndex => d.logIndex
  | .blockNumber => d.blockNumber
  | .token => d.token
  | .sender => d.sender
  | .receiver => d.receiver
  | .amount => d.amount

/-- The draft with a value given to a field. -/
def set (d : Draft) : (f : Field) → f.Value → Draft
  | .txHash, v => { d with txHash := some v }
  | .logIndex, v => { d with logIndex := some v }
  | .blockNumber, v => { d with blockNumber := some v }
  | .token, v => { d with token := some v }
  | .sender, v => { d with sender := some v }
  | .receiver, v => { d with receiver := some v }
  | .amount, v => { d with amount := some v }

/-- The draft whose fields have been given what is said for each. -/
def ofOptions (o : (f : Field) → Option f.Value) : Draft where
  txHash := o .txHash
  logIndex := o .logIndex
  blockNumber := o .blockNumber
  token := o .token
  sender := o .sender
  receiver := o .receiver
  amount := o .amount

/-- The reader of a field's value. -/
def reader : (f : Field) → Reader f.Value
  | .txHash => bytes 32
  | .logIndex => word
  | .blockNumber => word
  | .token => bytes 20
  | .sender => bytes 20
  | .receiver => optionalBytes 20
  | .amount => amountText

variable {d e : Draft} {f g : Field}

theorem fill_eq (d : Draft) (f : Field) : d.fill f = mapping (d.set f) (reader f) := by
  cases f <;> rfl

theorem filled_eq (d : Draft) (f : Field) : d.filled f = (d.get f).isSome := by
  cases f <;> rfl

theorem filled_eq_false_iff : d.filled f = false ↔ d.get f = none := by
  rw [filled_eq, Option.isSome_eq_false_iff, Option.isNone_iff_eq_none]

theorem get_blank (f : Field) : (form.blank.get f) = none := by
  cases f <;> rfl

theorem get_set_same (d : Draft) (f : Field) (x : f.Value) : (d.set f x).get f = some x := by
  cases f <;> rfl

theorem get_set_of_ne (h : g ≠ f) (d : Draft) (x : f.Value) : (d.set f x).get g = d.get g := by
  cases f <;> cases g
  case txHash.txHash | logIndex.logIndex | blockNumber.blockNumber | token.token | sender.sender
      | receiver.receiver | amount.amount => exact absurd rfl h
  all_goals rfl

theorem get_ofOptions (o : (f : Field) → Option f.Value) (f : Field) :
    (ofOptions o).get f = o f := by
  cases f <;> rfl

/-- A draft is known by what its fields have been given. -/
theorem ext_get (h : ∀ f, d.get f = e.get f) : d = e := by
  have := h .txHash
  have := h .logIndex
  have := h .blockNumber
  have := h .token
  have := h .sender
  have := h .receiver
  have := h .amount
  cases d
  cases e
  simp_all [get]

/-- A draft makes up a transfer when each field but the receiver has been given its value. -/
theorem finish_eq_some_iff {t : Transfer} :
    d.finish = some t ↔
      ∀ f, d.get f = some (t.get f) ∨ (f = .receiver ∧ d.get f = none ∧ t.receiver = none) := by
  constructor
  · intro h f
    simp only [finish, Option.bind_eq_bind, Option.bind_eq_some_iff, Option.pure_def,
      Option.some.injEq] at h
    obtain ⟨hash, h₁, index, h₂, block, h₃, token, h₄, sender, h₅, amount, h₆, rfl⟩ := h
    cases f with
    | receiver =>
      cases hreceiver : d.receiver with
      | none => exact .inr ⟨rfl, hreceiver, rfl⟩
      | some o => exact .inl hreceiver
    | txHash | logIndex | blockNumber | token | sender | amount => exact .inl ‹_›
  · intro h
    have hrequired : ∀ f, f ≠ .receiver → d.get f = some (t.get f) := fun f hf =>
      (h f).resolve_right fun hr => hf hr.1
    have h₁ : d.txHash = some t.txHash := hrequired .txHash nofun
    have h₂ : d.logIndex = some t.logIndex := hrequired .logIndex nofun
    have h₃ : d.blockNumber = some t.blockNumber := hrequired .blockNumber nofun
    have h₄ : d.token = some t.token := hrequired .token nofun
    have h₅ : d.sender = some t.sender := hrequired .sender nofun
    have h₆ : d.amount = some t.amount := hrequired .amount nofun
    have h₇ : d.receiver.getD none = t.receiver := by
      rcases h .receiver with h | ⟨-, h, hnone⟩
      · rw [show d.receiver = some t.receiver from h, Option.getD_some]
      · rw [show d.receiver = none from h, hnone, Option.getD_none]
    simp only [finish, h₁, h₂, h₃, h₄, h₅, h₆, h₇]
    rfl

/-! ### Readers of fields -/

section Readers

variable {front v r r' : List Char} (hfront : IsSpacing front) (h : IsValue v)

include hfront h

/-- Bytes are read from a string of as many hexadecimal digits. -/
theorem bytes_eq_ok_iff {n : ℕ} {b : Bytes n} :
    bytes n (front ++ (v ++ r)) = .ok (b, r') ↔ r' = r ∧ ∃ d, Means v d ∧ IsBytesOf d b := by
  simp only [bytes, refusing_eq_ok_iff, string_eq_ok_iff hfront h, IsBytesOf]
  constructor
  · rintro ⟨s, ⟨rfl, hs⟩, hb⟩
    exact ⟨rfl, _, hs, s, rfl, hb⟩
  · rintro ⟨rfl, _, hs, s, rfl, hb⟩
    exact ⟨s, ⟨rfl, hs⟩, hb⟩

theorem optionalBytes_eq_ok_iff {n : ℕ} {o : Option (Bytes n)} :
    optionalBytes n (front ++ (v ++ r)) = .ok (o, r') ↔
      r' = r ∧ ∃ d, Means v d ∧
        ((d = .null ∧ o = none) ∨ ∃ b : Bytes n, IsBytesOf d b ∧ o = some b) := by
  simp only [optionalBytes, refusing_eq_ok_iff, optional_string_eq_ok_iff hfront h, IsBytesOf]
  constructor
  · rintro ⟨_, ⟨rfl, ⟨rfl, hnull⟩ | ⟨s, rfl, hs⟩⟩, ho⟩
    · exact ⟨rfl, _, hnull, .inl ⟨rfl, (Except.ok.inj ho).symm⟩⟩
    · cases hb : Hex.decode n s with
      | error e => simp [hb, Except.map] at ho
      | ok b =>
        refine ⟨rfl, _, hs, .inr ⟨b, ⟨s, rfl, hb⟩, ?_⟩⟩
        simpa [hb, Except.map, eq_comm] using ho
  · rintro ⟨rfl, _, hd, ⟨rfl, rfl⟩ | ⟨b, ⟨s, rfl, hb⟩, rfl⟩⟩
    · exact ⟨none, ⟨rfl, .inl ⟨rfl, hd⟩⟩, rfl⟩
    · exact ⟨some s, ⟨rfl, .inr ⟨s, rfl, hd⟩⟩, by simp [hb, Except.map]⟩

theorem amountText_eq_ok_iff {a : Amount} :
    amountText (front ++ (v ++ r)) = .ok (a, r') ↔
      r' = r ∧ ∃ d, Means v d ∧ ∃ s, d = .text s ∧ Amount.parse s = .ok a := by
  simp only [amountText, refusing_eq_ok_iff, string_eq_ok_iff hfront h]
  constructor
  · rintro ⟨s, ⟨rfl, hs⟩, ha⟩
    exact ⟨rfl, _, hs, s, rfl, ha⟩
  · rintro ⟨rfl, _, hs, s, rfl, ha⟩
    exact ⟨s, ⟨rfl, hs⟩, ha⟩

/-- A field is read from the texts of the values that it accepts. -/
theorem reader_eq_ok_iff (hr : IsBehindValue r) {x : f.Value} :
    reader f (front ++ (v ++ r)) = .ok (x, r') ↔ r' = r ∧ f.Reads v x := by
  have hword : ∀ n : UInt64, word (front ++ (v ++ r)) = .ok (n, r') ↔
      r' = r ∧ ∃ d, Means v d ∧ d = .natural n.toNat := by
    intro n
    simp only [exists_eq_right, word_eq_ok_iff hfront h hr]
  cases f with
  | txHash | token | sender => exact bytes_eq_ok_iff hfront h
  | logIndex | blockNumber => exact hword x
  | receiver => exact optionalBytes_eq_ok_iff hfront h
  | amount => exact amountText_eq_ok_iff hfront h

end Readers

/-- What a field takes from the text of a value. -/
def Takes (d : Draft) (f : Field) (v : List Char) (d' : Draft) : Prop :=
  ∃ x, f.Reads v x ∧ d.set f x = d'

theorem readsBy_takes : form.ReadsBy Takes := by
  intro d f front v r d' r' hfront h hr
  show d.fill f _ = _ ↔ _
  simp only [fill_eq, mapping_eq_ok_iff, reader_eq_ok_iff hfront h hr, Takes]
  constructor
  · rintro ⟨x, ⟨rfl, hx⟩, rfl⟩
    exact ⟨rfl, x, hx, rfl⟩
  · rintro ⟨rfl, x, hx, rfl⟩
    exact ⟨x, ⟨rfl, hx⟩, rfl⟩

end Draft

end TransferLedger.Transfer
