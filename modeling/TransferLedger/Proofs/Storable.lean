import Mathlib.Tactic
import TransferLedger.Proofs.Enrolment
import TransferLedger.Proofs.HexText
import TransferLedger.Proofs.Numeral
import TransferLedger.Screening
import TransferLedger.Store.Memory
import TransferLedger.Store.Table

/-!
# Which transfers a store can hold

The screening rule looks at the sign and the number of digits of an amount, the table's check at
the text of it, and both look at the two numbers. They agree, and say the same as a range of
integers.

* `Transfer.IsStorable`: both numbers and the amount are in range;
* `Guard.accepted_eq_filter`: screening accepts exactly these transfers;
* `MemoryStore.isOutside_iff`: the store in memory refuses an amount out of range;
* `Table.insert_of_isStorable`, `Table.exists_insert_error`: so does the table, which refuses
  numbers out of range as well.
-/

namespace TransferLedger

/-- The range of the amount column. -/
def Amount.IsInRange (a : Amount) : Prop := 0 ≤ a.toInt ∧ a.toInt < 10 ^ 78

/-- The numbers of a transfer are stored integers. -/
def Transfer.HasStoredNumbers (t : Transfer) : Prop :=
  t.blockNumber.toNat ≤ storedMax ∧ t.logIndex.toNat ≤ storedMax

/-- Everything in a transfer is in the range of its column. -/
structure Transfer.IsStorable (t : Transfer) : Prop where
  numbers : t.HasStoredNumbers
  amount : t.amount.IsInRange

instance (a : Amount) : Decidable a.IsInRange := inferInstanceAs (Decidable (_ ∧ _))

instance (t : Transfer) : Decidable t.HasStoredNumbers := inferInstanceAs (Decidable (_ ∧ _))

instance (t : Transfer) : Decidable t.IsStorable :=
  decidable_of_iff (t.HasStoredNumbers ∧ t.amount.IsInRange)
    ⟨fun h => ⟨h.1, h.2⟩, fun h => ⟨h.numbers, h.amount⟩⟩

/-- A transfer with a log index and an amount of choice. -/
def sampleTransfer (logIndex : UInt64) (amount : ℤ) : Transfer where
  txHash := ⟨List.replicate 32 0xab, rfl⟩
  logIndex
  blockNumber := 7
  token := ⟨List.replicate 20 1, rfl⟩
  sender := ⟨List.replicate 20 2, rfl⟩
  receiver := none
  amount := Amount.ofInt amount

/-! ### The rule of the amount column -/

/-- The range in terms of sign and digits. -/
theorem Amount.isInRange_iff (a : Amount) :
    a.IsInRange ↔ a.negative = false ∧ a.digitCount ≤ Numeric.precision := by
  rw [IsInRange, a.toInt_nonneg_iff]
  refine and_congr_right fun h => ?_
  exact a.toInt_lt_pow_iff h (by norm_num)

theorem Numeric.verdict_eq_none_iff (a : Amount) : verdict a = none ↔ a.IsInRange := by
  rw [a.isInRange_iff, verdict]
  change (if a.negative = true then _ else _) = none ↔ _
  cases a.negative with
  | true => simp
  | false =>
    change (if precision < a.digitCount then _ else _) = none ↔ _
    simp

/-- No number is found too large, in whichever order they are looked at. -/
theorem Ordinal.find?_eq_none_iff (t : Transfer) (order : List Ordinal) :
    (order.find? fun which => storedMax < (which.value t).toNat) = none ↔
      ∀ which ∈ order, (which.value t).toNat ≤ storedMax := by
  simp

theorem Guard.oversized_eq_none_iff (t : Transfer) :
    oversized t = none ↔ t.HasStoredNumbers := by
  rw [oversized, Ordinal.find?_eq_none_iff, List.forall_mem_cons, List.forall_mem_singleton]
  exact Iff.rfl

/-- Nothing is held against a transfer exactly when it can be stored. -/
theorem Guard.examine_eq_none_iff (t : Transfer) :
    numeric.examine t = none ↔ t.IsStorable := by
  rw [examine]
  cases h : oversized t with
  | some which =>
    have hn : ¬t.HasStoredNumbers := by rw [← oversized_eq_none_iff, h]; simp
    simpa using fun hs : t.IsStorable => hn hs.numbers
  | none =>
    have hn := (oversized_eq_none_iff t).1 h
    simp only [Option.map_eq_none_iff]
    exact (Numeric.verdict_eq_none_iff t.amount).trans ⟨fun ha => ⟨hn, ha⟩, fun hs => hs.amount⟩

/-- Screening accepts the transfers that can be stored, in their order. -/
theorem Guard.accepted_eq_filter (batch : List Transfer) :
    (numeric.screen batch).accepted = batch.filter fun t => t.IsStorable := by
  refine List.filter_congr fun t _ => ?_
  rw [Bool.eq_iff_iff, Option.isNone_iff_eq_none, examine_eq_none_iff, decide_eq_true_iff]

/-- What is excluded is the rest. -/
theorem Guard.length_excluded (batch : List Transfer) :
    (numeric.screen batch).excluded.length = batch.countP fun t => ¬t.IsStorable := by
  rw [screen, List.length_filterMap_eq_countP]
  refine List.countP_congr fun t _ => ?_
  rw [Option.isSome_map, decide_eq_true_iff, ← examine_eq_none_iff]
  cases numeric.examine t <;> simp

theorem Guard.isStorable_of_mem_accepted {batch : List Transfer} {t : Transfer}
    (h : t ∈ (numeric.screen batch).accepted) : t.IsStorable := by
  rw [accepted_eq_filter, List.mem_filter] at h
  exact of_decide_eq_true h.2

/-! ### The store in memory -/

theorem MemoryStore.isOutside_iff (t : Transfer) : isOutside t = true ↔ ¬t.amount.IsInRange := by
  rw [t.amount.isInRange_iff, isOutside]
  cases t.amount.negative <;> simp

/-- The store in memory enrols the transfers of a batch and counts those that are new. -/
theorem MemoryStore.foldl_insert (batch : List Transfer) (g : Growth Transfer) :
    batch.foldl insert g = g.enrolAll Transfer.key batch := by
  induction batch generalizing g with
  | nil => rfl
  | cons t ts ih =>
    rw [List.foldl_cons, ih, Growth.enrolAll_cons, insert]
    simp only [beq_eq_decide]

/-! ### The table -/

namespace Table

theorem oversized_eq_none_iff (t : Transfer) : oversized t = none ↔ t.HasStoredNumbers := by
  rw [oversized, Ordinal.find?_eq_none_iff, List.forall_mem_cons, List.forall_mem_singleton]
  exact and_comm

/-- No null character cuts the numeral of an amount short. -/
theorem takeWhile_toText (a : Amount) : a.toText.takeWhile (· != '\x00') = a.toText := by
  rw [List.takeWhile_eq_self_iff]
  intro c hc
  have hdigit : c.isDigit = true ∨ c = '-' := by
    rw [Amount.toText] at hc
    split at hc
    · rcases List.mem_cons.1 hc with rfl | hc
      · exact .inr rfl
      · exact .inl (a.isDigit_of_mem hc)
    · exact .inl (a.isDigit_of_mem hc)
  rw [bne_iff_ne]
  rintro rfl
  rcases hdigit with h | h <;> exact absurd h (by decide)

/-- The check of the amount column asks for the same range. -/
theorem amountPasses_iff (a : Amount) : amountPasses a.toText = true ↔ a.IsInRange := by
  rw [a.isInRange_iff, amountPasses, takeWhile_toText]
  cases hn : a.negative with
  | true => simp [Amount.toText, hn]
  | false =>
    obtain ⟨c, r, h⟩ := List.exists_cons_of_ne_nil a.canonical.1
    have hc := (Decimal.digit_ne_sign (a.isDigit_of_mem (c := c) (by simp [h]))).1
    simp [Amount.toText, hn, Amount.digitCount, h, hc]

/-- The row of a transfer violates nothing but the check of the amount. -/
theorem violation_ofTransfer (t : Transfer) :
    violation (Cells.ofTransfer t) =
      if t.amount.IsInRange then none else some .amountCheck := by
  have hnull : (Transfer.Field.all.find? fun f =>
      Schema.isRequired f && (Cells.ofTransfer t).get f == .null) = none := by
    rw [List.find?_eq_none]
    intro f _
    cases f <;> simp [Cells.ofTransfer, Cells.get, Schema.isRequired]
  rw [violation, hnull]
  simp only [Cells.ofTransfer, amountPasses_iff]

/-- A transfer that can be stored is stored, unless its name is taken. -/
theorem insert_of_isStorable {t : Transfer} (h : t.IsStorable) (rows : List Cells) :
    insert rows t = .ok (if holds rows (Cells.ofTransfer t) then ⟨rows, 0⟩
      else ⟨rows ++ [Cells.ofTransfer t], 1⟩) := by
  rw [insert, (oversized_eq_none_iff t).2 h.numbers]
  simp only [violation_ofTransfer, h.amount, if_true]

/-- Any other transfer is refused, whatever the table holds. -/
theorem exists_insert_error {t : Transfer} (h : ¬t.IsStorable) :
    ∃ why, ∀ rows, insert rows t = .error why := by
  by_cases hn : t.HasStoredNumbers
  · have ha : ¬t.amount.IsInRange := fun ha => h ⟨hn, ha⟩
    refine ⟨.amountCheck, fun rows => ?_⟩
    rw [insert, (oversized_eq_none_iff t).2 hn]
    simp only [violation_ofTransfer, ha, if_false]
  · obtain ⟨which, hw⟩ := Option.ne_none_iff_exists'.1 (mt (oversized_eq_none_iff t).1 hn)
    exact ⟨.integerRange which (which.value t), fun rows => by rw [insert, hw]⟩

end Table

end TransferLedger
