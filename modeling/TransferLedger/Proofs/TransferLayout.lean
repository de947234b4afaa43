import Mathlib.Tactic
import TransferLedger.Proofs.FieldReaders
import TransferLedger.Proofs.RecordText
import TransferLedger.Proofs.Storable

/-!
# Transfers are read from any layout

A transfer is read from an object in which each field but the receiver has one member, whatever the
order and the spelling of the names, the white space, and the values of other members. It is the
same transfer for the same data, and a list of the values in the order of the fields holds it too.

* `Transfer.HasData`: the data that the members of an object have for the fields;
* `Transfer.gathers_iff`: what is gathered from an object, field by field;
* `Transfer.ofJson_of_any_layout`: the main result;
* `Transfer.refuses_unpaired_name_and_minus_zero`: what an object may not hold although the notation
  allows it.
-/

namespace TransferLedger.Transfer

open Json

/-! ### Objects -/

/-- What a field is given by the values of the members of its name: nothing by none, and a value by
one when it has none yet. -/
inductive Field.Collects (f : Field) : List (List Char) → Option f.Value → Option f.Value → Prop
  | none (o : Option f.Value) : Collects f [] o o
  | one {v : List Char} {x : f.Value} (h : f.Reads v x) : Collects f [v] none (some x)

theorem Field.collects_nil_iff {f : Field} {o o' : Option f.Value} :
    f.Collects [] o o' ↔ o = o' := by
  constructor
  · rintro ⟨⟩
    rfl
  · rintro rfl
    exact .none o

theorem Field.collects_cons_iff {f : Field} {v : List Char} {vs : List (List Char)}
    {o o' : Option f.Value} :
    f.Collects (v :: vs) o o' ↔ o = none ∧ ∃ x, f.Reads v x ∧ f.Collects vs (some x) o' := by
  constructor
  · rintro @⟨⟩
    exact ⟨rfl, _, ‹_›, .none _⟩
  · rintro ⟨rfl, x, hx, ⟨⟩⟩
    exact .one hx

/-- The values of the members that have the name of a field. -/
abbrev valuesOf (f : Field) (ms : List (List Char × List Char)) : List (List Char) :=
  valuesAt f.name.toList ms

theorem named_eq_some_iff {name : List Char} {f : Field} :
    form.named name = some f ↔ name = f.name.toList := by
  constructor
  · intro h
    have := List.find?_some h
    exact (beq_iff_eq.1 this).symm
  · rintro rfl
    exact named_name f

section Members

variable {m : List Char × List Char} {name : List Char} (hspells : Spells m.1 name)
  (ms : List (List Char × List Char))

include hspells

/-- A member is counted for the field whose name it spells. -/
theorem valuesOf_cons_same {f : Field} (h : form.named name = some f) :
    valuesOf f (m :: ms) = m.2 :: valuesOf f ms := by
  obtain rfl := named_eq_some_iff.1 h
  exact valuesAt_cons_of_spells hspells ms

/-- It is counted for no other field. -/
theorem valuesOf_cons_of_ne {f : Field} (h : form.named name ≠ some f) :
    valuesOf f (m :: ms) = valuesOf f ms := by
  refine valuesAt_cons_of_not_spells (fun hf => h ?_) ms
  exact named_eq_some_iff.2 (hspells.unique hf)

variable {d e : Draft}

/-- A member of a field fills that field, and leaves the others as they are. -/
theorem collects_cons_known_iff {f : Field} (h : form.named name = some f) :
    (∀ g : Field, g.Collects (valuesOf g (m :: ms)) (d.get g) (e.get g)) ↔
      d.get f = none ∧ ∃ x, f.Reads m.2 x ∧
        ∀ g : Field, g.Collects (valuesOf g ms) ((d.set f x).get g) (e.get g) := by
  have hother : ∀ g, g ≠ f → valuesOf g (m :: ms) = valuesOf g ms := fun g hg =>
    valuesOf_cons_of_ne hspells ms fun hg' => hg (Option.some.inj (hg'.symm.trans h))
  constructor
  · intro hall
    have hf := hall f
    rw [valuesOf_cons_same hspells ms h, Field.collects_cons_iff] at hf
    obtain ⟨hnone, x, hx, hcollects⟩ := hf
    refine ⟨hnone, x, hx, fun g => ?_⟩
    by_cases hg : g = f
    · subst hg
      rwa [Draft.get_set_same]
    · rw [Draft.get_set_of_ne hg, ← hother g hg]
      exact hall g
  · rintro ⟨hnone, x, hx, hrest⟩ g
    by_cases hg : g = f
    · subst hg
      have hcollects := hrest g
      rw [Draft.get_set_same] at hcollects
      rw [valuesOf_cons_same hspells ms h, Field.collects_cons_iff]
      exact ⟨hnone, x, hx, hcollects⟩
    · rw [hother g hg, ← Draft.get_set_of_ne hg d x]
      exact hrest g

/-- A member of no field fills nothing. -/
theorem collects_cons_unknown_iff (h : form.named name = none) :
    (∀ g : Field, g.Collects (valuesOf g (m :: ms)) (d.get g) (e.get g)) ↔
      ∀ g : Field, g.Collects (valuesOf g ms) (d.get g) (e.get g) := by
  refine forall_congr' fun g => ?_
  rw [valuesOf_cons_of_ne hspells ms (by simp [h])]

end Members

/-- What is gathered from an object, field by field. -/
theorem gathers_iff {d e : Draft} {ms : List (List Char × List Char)} :
    form.Gathers Draft.Takes d ms e ↔
      (∀ m ∈ ms, ∃ n, Spells m.1 n) ∧
        ∀ f : Field, f.Collects (valuesOf f ms) (d.get f) (e.get f) := by
  induction ms generalizing d with
  | nil =>
    constructor
    · rintro ⟨⟩
      exact ⟨fun m hm => absurd hm List.not_mem_nil, fun f => .none _⟩
    · rintro ⟨-, h⟩
      rw [Draft.ext_get fun f => Field.collects_nil_iff.1 (h f)]
      exact .nil e
  | cons m ms ih =>
    rw [List.forall_mem_cons]
    constructor
    · rintro (_ | ⟨spells, named, unfilled, ⟨x, hx, rfl⟩, rest⟩ | ⟨spells, named, rest⟩)
      · obtain ⟨names, hrest⟩ := ih.1 rest
        have hnone := Draft.filled_eq_false_iff.1 unfilled
        exact ⟨⟨⟨_, spells⟩, names⟩,
          (collects_cons_known_iff spells ms named).2 ⟨hnone, x, hx, hrest⟩⟩
      · obtain ⟨names, hrest⟩ := ih.1 rest
        exact ⟨⟨⟨_, spells⟩, names⟩, (collects_cons_unknown_iff spells ms named).2 hrest⟩
    · rintro ⟨⟨⟨name, spells⟩, names⟩, h⟩
      cases named : form.named name with
      | none =>
        have hrest := (collects_cons_unknown_iff spells ms named).1 h
        exact .unknown spells named (ih.2 ⟨names, hrest⟩)
      | some f =>
        obtain ⟨hnone, x, hx, hrest⟩ := (collects_cons_known_iff spells ms named).1 h
        have unfilled := Draft.filled_eq_false_iff.2 hnone
        exact .known spells named unfilled ⟨x, hx, rfl⟩ (ih.2 ⟨names, hrest⟩)

/-! ### Data -/

/-- What the values of the members of a field's name say: what the one value means. To leave the
receiver out is to say `null`. -/
inductive Field.Holds : Field → List (List Char) → Datum → Prop
  | one {f : Field} {v : List Char} {d : Datum} (h : Means v d) : Holds f [v] d
  | absent : Holds .receiver [] .null

theorem Field.Holds.unique {f : Field} {vs : List (List Char)} {d d' : Datum} (h : f.Holds vs d)
    (h' : f.Holds vs d') : d = d' := by
  cases h with
  | one h =>
    cases h' with
    | one h' => exact h.unique h'
  | absent =>
    cases h'
    rfl

/-- The data that the members of an object have for the fields. -/
def HasData (ms : List (List Char × List Char)) (data : Field → Datum) : Prop :=
  ∀ f : Field, f.Holds (valuesOf f ms) (data f)

theorem get_draft (t : Transfer) (f : Field) : t.draft.get f = some (t.get f) := by
  cases f <;> rfl

theorem accepts_receiver_null_iff {o : Option Address} :
    Field.receiver.Accepts .null o ↔ o = none := by
  constructor
  · rintro (⟨-, h⟩ | ⟨b, ⟨s, hs, -⟩, -⟩)
    · exact h
    · cases hs
  · exact fun h => .inl ⟨rfl, h⟩

/-- What a field collects makes up its value when the field accepts what is said for it. -/
theorem Field.exists_collects_iff {f : Field} {vs : List (List Char)} {t : Transfer} :
    (∃ o, f.Collects vs none o ∧
      (o = some (t.get f) ∨ (f = .receiver ∧ o = none ∧ t.receiver = none))) ↔
      ∃ d, f.Holds vs d ∧ f.Accepts d (t.get f) := by
  constructor
  · rintro ⟨_, hcollects, rfl | ⟨rfl, rfl, hnone⟩⟩
    · cases hcollects with
      | one h =>
        obtain ⟨d, hd, hx⟩ := h
        exact ⟨d, .one hd, hx⟩
    · cases hcollects
      exact ⟨.null, .absent, accepts_receiver_null_iff.2 hnone⟩
  · rintro ⟨d, hd, hx⟩
    cases hd with
    | one h => exact ⟨_, .one ⟨d, h, hx⟩, .inl rfl⟩
    | absent => exact ⟨none, .none _, .inr ⟨rfl, rfl, accepts_receiver_null_iff.1 hx⟩⟩

/-- What is gathered makes up a transfer when every field accepts what is said for it. -/
theorem exists_collects_iff {t : Transfer} {vs : Field → List (List Char)} :
    (∃ e : Draft, (∀ f : Field, f.Collects (vs f) none (e.get f)) ∧ e.finish = some t) ↔
      ∀ f : Field, ∃ d, f.Holds (vs f) d ∧ f.Accepts d (t.get f) := by
  simp only [← Field.exists_collects_iff, Draft.finish_eq_some_iff]
  constructor
  · rintro ⟨e, hcollects, hfinish⟩ f
    exact ⟨e.get f, hcollects f, hfinish f⟩
  · intro h
    choose o hcollects hfinish using h
    refine ⟨.ofOptions o, ?_⟩
    simp only [Draft.get_ofOptions]
    exact ⟨hcollects, hfinish⟩

/-- A transfer is read from an object when all names spell texts and every field accepts what is
said for it. -/
theorem ofJson_eq_ok_iff_of_isObject {ms : List (List Char × List Char)} {s : List Char}
    (h : IsObject ms s) {t : Transfer} :
    ofJson s = .ok t ↔ (∀ m ∈ ms, ∃ n, Spells m.1 n) ∧
      ∀ f : Field, ∃ d, f.Holds (valuesOf f ms) d ∧ f.Accepts d (t.get f) := by
  rw [ofJson, Form.decode_eq_ok_iff_of_isObject Draft.readsBy_takes h, ← exists_collects_iff]
  simp only [gathers_iff, Draft.get_blank, and_assoc, exists_and_left]
  rfl

/-! ### Lists -/

/-- What is gathered from a list, field by field. -/
theorem gathersInOrder_iff {d e : Draft} {fs : List Field} (hfs : fs.Nodup)
    {vs : List (List Char)} :
    Form.GathersInOrder Draft.Takes d fs vs e ↔
      List.Forall₂ (fun f v => ∃ x, f.Reads v x ∧ some x = e.get f) fs vs ∧
        ∀ f, f ∉ fs → d.get f = e.get f := by
  induction fs generalizing d vs with
  | nil =>
    constructor
    · rintro ⟨⟩
      exact ⟨.nil, fun f _ => rfl⟩
    · rintro ⟨⟨⟩, h⟩
      rw [Draft.ext_get fun f => h f List.not_mem_nil]
      exact .nil e
  | cons f fs ih =>
    obtain ⟨hf, hfs⟩ := List.nodup_cons.1 hfs
    constructor
    · rintro (_ | @⟨_, _, _, _, _, v, vs, ⟨x, hx, rfl⟩, rest⟩)
      obtain ⟨hvalues, hother⟩ := (ih hfs).1 rest
      refine ⟨.cons ⟨x, hx, ?_⟩ hvalues, fun g hg => ?_⟩
      · rw [← hother f hf, Draft.get_set_same]
      · obtain ⟨hne, hg⟩ := not_or.1 (mt List.mem_cons.2 hg)
        rw [← hother g hg, Draft.get_set_of_ne hne]
    · rintro ⟨_ | ⟨⟨x, hx, hvalue⟩, hvalues⟩, hother⟩
      refine .cons ⟨x, hx, rfl⟩ ((ih hfs).2 ⟨hvalues, fun g hg => ?_⟩)
      by_cases hne : g = f
      · subst hne
        rw [Draft.get_set_same, hvalue]
      · rw [Draft.get_set_of_ne hne]
        exact hother g (mt List.mem_cons.1 (not_or.2 ⟨hne, hg⟩))

/-- A field reads what it accepts of the meaning of a text. -/
theorem Field.reads_iff {f : Field} {v : List Char} {d : Datum} (h : Means v d) {x : f.Value} :
    f.Reads v x ↔ f.Accepts d x := by
  constructor
  · rintro ⟨d', hd', hx⟩
    rwa [h.unique hd']
  · exact fun hx => ⟨d, h, hx⟩

theorem forall₂_reads_iff {t : Transfer} {data : Field → Datum} {fs : List Field}
    {vs : List (List Char)} (h : List.Forall₂ (fun f v => Means v (data f)) fs vs) :
    List.Forall₂ (fun f v => f.Reads v (t.get f)) fs vs ↔
      ∀ f ∈ fs, f.Accepts (data f) (t.get f) := by
  induction h with
  | nil => simp
  | cons hmeans _ ih => rw [List.forall₂_cons, List.forall_mem_cons, ih, Field.reads_iff hmeans]

/-- A transfer is read from a list of the values of its fields. -/
theorem ofJson_eq_ok_iff_of_isList {vs : List (List Char)} {s : List Char} (h : IsList vs s)
    (hlength : vs.length = Field.all.length) {t : Transfer} :
    ofJson s = .ok t ↔ List.Forall₂ (fun f v => f.Reads v (t.get f)) Field.all vs := by
  rw [ofJson, Form.decode_eq_ok_iff_of_isList Draft.readsBy_takes h hlength]
  have hall : form.fields = Field.all := rfl
  have hnodup : Field.all.Nodup := by decide
  simp only [hall, gathersInOrder_iff hnodup]
  constructor
  · rintro ⟨e, ⟨hvalues, -⟩, hfinish⟩
    refine hvalues.imp fun f v ⟨x, hx, hvalue⟩ => ?_
    rcases Draft.finish_eq_some_iff.1 hfinish f with hf | ⟨-, hf, -⟩
    · rwa [← Option.some.inj (hvalue.trans hf)]
    · cases hvalue.trans hf
  · intro hvalues
    refine ⟨t.draft, ⟨hvalues.imp fun f v hx => ⟨_, hx, (get_draft t f).symm⟩, ?_⟩, rfl⟩
    exact fun f hf => absurd f.mem_all hf

/-! ### What is written -/

/-- The data of a transfer as it is written. -/
def data (t : Transfer) : Field → Datum
  | .txHash => .text (Hex.encode t.txHash.toList)
  | .logIndex => .natural t.logIndex.toNat
  | .blockNumber => .natural t.blockNumber.toNat
  | .token => .text (Hex.encode t.token.toList)
  | .sender => .text (Hex.encode t.sender.toList)
  | .receiver => t.receiver.elim .null fun a => .text (Hex.encode a.toList)
  | .amount => .text t.amount.toText

theorem isBytesOf_encode {n : ℕ} (b : Bytes n) : IsBytesOf (.text (Hex.encode b.toList)) b :=
  ⟨_, rfl, Hex.decode_encode b⟩

theorem accepts_data (t : Transfer) (f : Field) : f.Accepts (t.data f) (t.get f) := by
  cases f with
  | txHash | token | sender => exact isBytesOf_encode _
  | logIndex | blockNumber => rfl
  | receiver =>
    cases h : t.receiver with
    | none => exact .inl ⟨by simp [data, h], h⟩
    | some a => exact .inr ⟨a, by simpa [data, h] using isBytesOf_encode a, h⟩
  | amount => exact ⟨_, rfl, t.amount.parse_toText⟩

/-- The value of a field means what it says. -/
theorem means_valueText (t : Transfer) (f : Field) : Means (t.valueText f) (t.data f) := by
  have hnatural : ∀ n : UInt64, Means (Decimal.ofNat n.toNat) (.natural n.toNat) := fun n =>
    means_natural_iff.2 ⟨Decimal.isCanonical_ofNat _, Decimal.value_ofNat _⟩
  cases f with
  | txHash | token | sender | amount => exact means_quote _
  | logIndex | blockNumber => exact hnatural _
  | receiver =>
    cases h : t.receiver with
    | none => simpa [valueText, data, optionalText, h] using Means.null
    | some a => simpa [valueText, data, optionalText, h] using means_quote _

/-- The transfer of given values. -/
def ofValues (x : (f : Field) → f.Value) : Transfer where
  txHash := x .txHash
  logIndex := x .logIndex
  blockNumber := x .blockNumber
  token := x .token
  sender := x .sender
  receiver := x .receiver
  amount := x .amount

theorem get_ofValues (x : (f : Field) → f.Value) (f : Field) : (ofValues x).get f = x f := by
  cases f <;> rfl

/-! ### A sample -/

/-- The escape of one half of a surrogate pair. -/
def unpaired : List Char := ['\\', 'u', 'd', '8', '0', '0']

theorem isContent_unpaired : IsContent unpaired := by
  have hunit : Writes unpaired (.unit 0xd800) := .unit ⟨13, 8, 0, 0, by decide⟩
  exact .cons hunit nofun .nil

theorem not_spells_unpaired (n : List Char) : ¬Spells unpaired n := by
  have hread : readText (unpaired ++ ['"']) = .error .malformed := by decide +kernel
  rw [← readText_quote_iff, hread]
  exact nofun

theorem isValue_five : IsValue ['5'] :=
  .numeral (isNumeral_of_isCanonical (Decimal.isCanonical_ofNat 5))

/-- An empty object, half of a surrogate pair, and a number beyond every finite one. -/
def sampleNote : List Char :=
  listText [['\x7b', ' ', '\x7d'], '"' :: (unpaired ++ ['"']), ['1', 'e', '9', '9', '9']]

theorem isValue_sampleNote : IsValue sampleNote := by
  have hone : Decimal.IsCanonical ['1'] := Decimal.isCanonical_ofNat 1
  have hnine : Decimal.IsCanonical ['9', '9', '9'] := Decimal.isCanonical_ofNat 999
  have hhuge : IsNumeral ['1', 'e', '9', '9', '9'] :=
    .intro (.inl rfl) hone .absent (.digits (.inl rfl) (.inl rfl) ⟨hnine.1, hnine.2.1⟩)
  refine isValue_listText ?_
  simp only [List.forall_mem_cons, List.not_mem_nil, IsEmpty.forall_iff, implies_true, and_true]
  refine ⟨?_, .text isContent_unpaired, .numeral hhuge⟩
  exact @IsValue.object [] [' '] (by simp) (.empty (by decide))

/-- Members in an order of their own, one name spelled with an escape, one of no field, and none
for the receiver. The log index is given by its text. -/
def sampleMembers (logIndex : List Char) : List (List Char × List Char) :=
  let t := sampleTransfer 5 12
  [("amount".toList, t.valueText .amount), ("\\u0074x_hash".toList, t.valueText .txHash),
    ("note".toList, sampleNote), ("from_address".toList, t.valueText .sender),
    ("log_index".toList, logIndex), ("token_address".toList, t.valueText .token),
    ("block_number".toList, t.valueText .blockNumber)]

theorem spells_sampleMembers (logIndex : List Char) :
    ∀ m ∈ sampleMembers logIndex, ∃ n, Spells m.1 n := by
  have hnames : ∀ c ∈ (sampleMembers []).map Prod.fst,
      ∃ n ∈ "note".toList :: Field.all.map fun f => f.name.toList, Spells c n := by
    decide +kernel
  intro m hm
  have hname : m.1 ∈ (sampleMembers logIndex).map Prod.fst := List.mem_map_of_mem hm
  obtain ⟨n, -, hn⟩ := hnames m.1 hname
  exact ⟨n, hn⟩

theorem sound_sampleMembers {logIndex : List Char} (h : IsValue logIndex) :
    ∀ m ∈ sampleMembers logIndex, IsContent m.1 ∧ IsValue m.2 := by
  have hvalue : ∀ f, IsValue ((sampleTransfer 5 12).valueText f) := fun f =>
    (means_valueText _ f).isValue
  refine fun m hm => ⟨?_, ?_⟩
  · obtain ⟨n, hn⟩ := spells_sampleMembers logIndex m hm
    exact hn.isContent
  · simp only [sampleMembers, List.mem_cons, List.not_mem_nil, or_false] at hm
    rcases hm with rfl | rfl | rfl | rfl | rfl | rfl | rfl
    · exact hvalue .amount
    · exact hvalue .txHash
    · exact isValue_sampleNote
    · exact hvalue .sender
    · exact h
    · exact hvalue .token
    · exact hvalue .blockNumber

theorem hasData_sampleMembers : HasData (sampleMembers ['5']) (sampleTransfer 5 12).data := by
  have hvalues : ∀ f ∈ Field.all, f ≠ .receiver →
      valuesOf f (sampleMembers ['5']) = [(sampleTransfer 5 12).valueText f] := by
    decide +kernel
  have hreceiver : valuesOf .receiver (sampleMembers ['5']) = [] := by decide +kernel
  intro f
  by_cases hf : f = .receiver
  · subst hf
    rw [hreceiver]
    exact .absent
  · rw [hvalues f f.mem_all hf]
    exact .one (means_valueText _ f)

/-- The values of the sample in the order of the fields. -/
def sampleElements : List (List Char) := Field.all.map (sampleTransfer 5 12).valueText

/-! ### Any layout -/

/-- **A transfer is read from any layout of its data.** An object, with its members in any order,
any white space between them and any spelling of their names, holds a transfer if and only if all
names spell texts and the members of the names of the fields have data that the fields accept: each
has one member, but the receiver may be left out, which says the same as `null`. The transfer is
known by the data alone; no other member matters, whatever its value. A list of the data in the
order of the fields holds the same transfer. -/
theorem ofJson_of_any_layout {ms : List (List Char × List Char)} {s : List Char}
    (h : IsObject ms s) :
    ((∃ t, ofJson s = .ok t) ↔ (∀ m ∈ ms, ∃ n, Spells m.1 n) ∧
      ∃ data, HasData ms data ∧ ∀ f : Field, ∃ x, f.Accepts (data f) x) ∧
    ∀ data, HasData ms data → (∀ m ∈ ms, ∃ n, Spells m.1 n) →
      (∀ t, ofJson s = .ok t ↔ ∀ f : Field, f.Accepts (data f) (t.get f)) ∧
      ∀ vs l, IsList vs l → List.Forall₂ (fun f v => Means v (data f)) Field.all vs →
        ∀ t, ofJson l = .ok t ↔ ofJson s = .ok t := by
  have hobject : ∀ data, HasData ms data → (∀ m ∈ ms, ∃ n, Spells m.1 n) →
      ∀ t, ofJson s = .ok t ↔ ∀ f : Field, f.Accepts (data f) (t.get f) := by
    intro data hdata names t
    rw [ofJson_eq_ok_iff_of_isObject h, and_iff_right names]
    refine forall_congr' fun f => ⟨fun ⟨d, hd, hx⟩ => ?_, fun hx => ⟨_, hdata f, hx⟩⟩
    rwa [(hdata f).unique hd]
  refine ⟨⟨fun ⟨t, ht⟩ => ?_, fun ⟨names, data, hdata, haccepts⟩ => ?_⟩,
    fun data hdata names => ⟨hobject data hdata names, fun vs l hl hmeans t => ?_⟩⟩
  · obtain ⟨names, hfields⟩ := (ofJson_eq_ok_iff_of_isObject h).1 ht
    choose data hdata haccepts using hfields
    exact ⟨names, data, hdata, fun f => ⟨_, haccepts f⟩⟩
  · choose x hx using haccepts
    refine ⟨ofValues x, (hobject data hdata names _).2 fun f => ?_⟩
    rw [get_ofValues]
    exact hx f
  · rw [hobject data hdata names, ofJson_eq_ok_iff_of_isList hl hmeans.length_eq.symm]
    rw [forall₂_reads_iff hmeans]
    exact ⟨fun h f => h f f.mem_all, fun h f _ => h f⟩

theorem ofJson_of_any_layout_on_sample :
    let t := sampleTransfer 5 12
    let ms := sampleMembers ['5']
    IsObject ms (objectText ms) ∧ HasData ms t.data ∧ (∀ m ∈ ms, ∃ n, Spells m.1 n) ∧
      IsList sampleElements (listText sampleElements) ∧
      List.Forall₂ (fun f v => Means v (t.data f)) Field.all sampleElements ∧
      ofJson (objectText ms) = .ok t ∧ ofJson (listText sampleElements) = .ok t := by
  have hobject := isObject_objectText (sound_sampleMembers isValue_five)
  have hnames := spells_sampleMembers ['5']
  have hmeans : List.Forall₂ (fun f v => Means v ((sampleTransfer 5 12).data f)) Field.all
      sampleElements := by
    rw [sampleElements, List.forall₂_map_right_iff, List.forall₂_same]
    exact fun f _ => means_valueText _ f
  have hlist : IsList sampleElements (listText sampleElements) := by
    refine isList_listText fun v hv => ?_
    obtain ⟨f, -, rfl⟩ := List.mem_map.1 hv
    exact (means_valueText _ f).isValue
  obtain ⟨hread, hsame⟩ := (ofJson_of_any_layout hobject).2 _ hasData_sampleMembers hnames
  have ht := (hread (sampleTransfer 5 12)).2 (accepts_data _)
  exact ⟨hobject, hasData_sampleMembers, hnames, hlist, hmeans, ht,
    (hsame _ _ hlist hmeans _).2 ht⟩

/-- Two objects that the notation allows, all of whose fields have acceptable values, and that hold
no transfer: in one the name of a further member is half of a surrogate pair, in the other a number
is zero with a minus sign. -/
theorem refuses_unpaired_name_and_minus_zero :
    let t := sampleTransfer 5 12
    let unnamed := (unpaired, ['n', 'u', 'l', 'l']) :: sampleMembers ['5']
    let signed := sampleMembers ['-', '0']
    (IsObject unnamed (objectText unnamed) ∧ HasData unnamed t.data ∧
      (∀ f : Field, f.Accepts (t.data f) (t.get f)) ∧
      ofJson (objectText unnamed) = .error .malformed) ∧
    IsObject signed (objectText signed) ∧
      (∀ f : Field, f ≠ .logIndex → f.Holds (valuesOf f signed) (t.data f)) ∧
      valuesOf .logIndex signed = [['-', '0']] ∧
      Decimal.IsCanonical ['0'] ∧ -(Decimal.value ['0'] : ℤ) = 0 ∧
      ofJson (objectText signed) = .error (.rejected (.invalidType .floating "u64")) := by
  have hunnamed : ∀ m ∈ (unpaired, ['n', 'u', 'l', 'l']) :: sampleMembers ['5'],
      IsContent m.1 ∧ IsValue m.2 :=
    List.forall_mem_cons.2 ⟨⟨isContent_unpaired, .null⟩, sound_sampleMembers isValue_five⟩
  have hdata : HasData ((unpaired, ['n', 'u', 'l', 'l']) :: sampleMembers ['5'])
      (sampleTransfer 5 12).data := by
    intro f
    rw [valuesOf, valuesAt_cons_of_not_spells (not_spells_unpaired _)]
    exact hasData_sampleMembers f
  have hzero : Decimal.IsCanonical ['0'] := Decimal.isCanonical_zero
  have hminus : IsValue ['-', '0'] := .numeral (.intro (.inr rfl) hzero .absent .absent)
  have hsigned := isObject_objectText (sound_sampleMembers hminus)
  have hvalues : ∀ f ∈ Field.all, f ≠ .logIndex →
      valuesOf f (sampleMembers ['-', '0']) = valuesOf f (sampleMembers ['5']) := by
    decide +kernel
  refine ⟨⟨isObject_objectText hunnamed, hdata, accepts_data _, by decide +kernel⟩, hsigned, ?_,
    by decide +kernel, hzero, by decide, by decide +kernel⟩
  intro f hf
  rw [hvalues f f.mem_all hf]
  exact hasData_sampleMembers f

end TransferLedger.Transfer
