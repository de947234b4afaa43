import Mathlib.Tactic
import TransferLedger.Proofs.FirstFault
import TransferLedger.Proofs.History

/-!
# A batch is refused at its first offender

A store looks at the transfers of a batch one after another, and some that are fine may have been
added when it meets one that is not. Then it names that one and is as before; whether the name of
the offender is already taken does not matter.

* `Table.Offends`, `MemoryStore.Offends`: what each store holds against a transfer;
* `Table.insertAll_eq_error_iff`: the rows that are there have no say in a refusal;
* `Database.commit_of_error`, `MemoryStore.store_of_error`: what a failed commit leaves;
* `commits_fail_on_offenders`: when commits to either store fail, with what, and what they leave.
-/

namespace TransferLedger

/-! ### What is held against a transfer -/

/-- An amount is below zero, or has more digits than its column. -/
def Amount.IsOutside (a : Amount) : Prop := a.toInt < 0 ∨ Numeric.precision < a.digitCount

theorem Amount.isOutside_iff (a : Amount) : a.IsOutside ↔ ¬a.IsInRange := by
  rw [a.isInRange_iff, ← a.toInt_nonneg_iff, IsOutside]
  omega

/-- What the table holds against a transfer: the first number in the order of the columns that no
stored integer equals, and otherwise the amount. -/
inductive Table.Offends (t : Transfer) : Violation → Prop
  | logIndex (large : storedMax < t.logIndex.toNat) :
      Offends t (.integerRange .logIndex t.logIndex)
  | blockNumber (fits : t.logIndex.toNat ≤ storedMax) (large : storedMax < t.blockNumber.toNat) :
      Offends t (.integerRange .blockNumber t.blockNumber)
  | amount (fit : t.HasStoredNumbers) (outside : t.amount.IsOutside) : Offends t .amountCheck

/-- The store in memory looks at the amount only, and tells it. -/
inductive MemoryStore.Offends (t : Transfer) : Violation → Prop
  | amount (outside : t.amount.IsOutside) : Offends t (.amountRange t.amount)

theorem MemoryStore.exists_offends_iff {t : Transfer} :
    (∃ why, Offends t why) ↔ t.amount.IsOutside :=
  ⟨fun ⟨_, .amount h⟩ => h, fun h => ⟨_, .amount h⟩⟩

namespace Table

variable {t : Transfer} {batch : List Transfer} {why : Violation}

/-- The numbers of a transfer decide in their order, and the amount when both fit. -/
theorem exists_offends_iff : (∃ why, Offends t why) ↔ storedMax < t.logIndex.toNat ∨
    storedMax < t.blockNumber.toNat ∨ t.amount.IsOutside := by
  constructor
  · rintro ⟨_, h⟩
    cases h with
    | logIndex large => exact .inl large
    | blockNumber _ large => exact .inr (.inl large)
    | amount _ outside => exact .inr (.inr outside)
  · intro h
    by_cases hl : storedMax < t.logIndex.toNat
    · exact ⟨_, .logIndex hl⟩
    have hl' := Nat.le_of_not_lt hl
    by_cases hb : storedMax < t.blockNumber.toNat
    · exact ⟨_, .blockNumber hl' hb⟩
    · have hamount := (h.resolve_left hl).resolve_left hb
      exact ⟨_, .amount ⟨Nat.le_of_not_lt hb, hl'⟩ hamount⟩

/-- Nothing is held against exactly the transfers that can be stored. -/
theorem forall_not_offends_iff : (∀ why, ¬Offends t why) ↔ t.IsStorable := by
  rw [← not_exists, exists_offends_iff, t.amount.isOutside_iff, not_or, not_or, not_not,
    Nat.not_lt, Nat.not_lt]
  exact ⟨fun ⟨hl, hb, ha⟩ => ⟨⟨hb, hl⟩, ha⟩, fun h => ⟨h.numbers.2, h.numbers.1, h.amount⟩⟩

/-- The log index is looked at before the block number. -/
theorem oversized_eq (t : Transfer) : oversized t =
    if storedMax < t.logIndex.toNat then some .logIndex
    else if storedMax < t.blockNumber.toNat then some .blockNumber else none := by
  by_cases hl : storedMax < t.logIndex.toNat <;>
    by_cases hb : storedMax < t.blockNumber.toNat <;>
    simp [oversized, Ordinal.value, hl, hb]

/-- An offender is refused for what is held against it, whatever the table holds. -/
theorem insert_of_offends (h : Offends t why) (rows : List Cells) :
    insert rows t = .error why := by
  cases h with
  | logIndex large =>
    rw [insert, oversized_eq, if_pos large]
    rfl
  | blockNumber fits large =>
    rw [insert, oversized_eq, if_neg (Nat.not_lt.2 fits), if_pos large]
    rfl
  | amount fit outside =>
    have hrange := t.amount.isOutside_iff.1 outside
    rw [insert, (oversized_eq_none_iff t).2 fit]
    simp only [violation_ofTransfer, hrange, if_false]

/-- Rows that were added before an offender, or are there already, have no say in its refusal. -/
theorem insert_eq_error_iff (rows : List Cells) : insert rows t = .error why ↔ Offends t why := by
  refine ⟨fun h => ?_, fun h => insert_of_offends h rows⟩
  by_cases ht : t.IsStorable
  · rw [insert_of_isStorable ht] at h
    cases h
  · obtain ⟨wrong, hwrong⟩ := not_forall_not.1 (mt forall_not_offends_iff.1 ht)
    obtain rfl := Except.error.inj ((insert_of_offends hwrong rows).symm.trans h)
    exact hwrong

/-- Rows are added up to the first offender. -/
theorem insertAll_eq_error_iff (g : Growth Cells) :
    insertAll g batch = .error why ↔ IsFirstFault Offends batch why := by
  induction batch generalizing g with
  | nil => simp [insertAll, not_isFirstFault_nil]
  | cons t ts ih =>
    simp only [isFirstFault_cons_iff, ← insert_eq_error_iff g.rows (t := t), insertAll]
    cases insert g.rows t with
    | ok next => simp [ih]
    | error wrong => simp

/-- A commit fails with the violation of the first offender, and with nothing else. -/
theorem commit_eq_error_iff {table : Table} {e : StoreError} :
    (commit batch table).result = .error e ↔
      ∃ why, e = .constraintViolation why ∧ IsFirstFault Offends batch why := by
  cases batch with
  | nil => simp [commit, not_isFirstFault_nil]
  | cons t ts =>
    simp only [← insertAll_eq_error_iff { rows := table.rows }]
    rw [commit]
    cases hr : insertAll { rows := table.rows } (t :: ts) with
    | ok grown => simp
    | error wrong => simp [eq_comm]

end Table

/-! ### Failing commits -/

section Failing

variable {τ : Type} [Store τ] {Offends : Transfer → Violation → Prop} {IsBad : Transfer → Prop}
variable {batch : List Transfer} {s spent : τ}

/-- A commit fails exactly when a transfer of its batch is bad, and with what is wrong with the
first one of these. -/
structure FailsAtFirst (IsBad : Transfer → Prop) (Offends : Transfer → Violation → Prop)
    (batch : List Transfer) (s : τ) : Prop where
  fails_iff : (∃ e, (Store.commit batch s).result = .error e) ↔ ∃ t ∈ batch, IsBad t
  error_iff (e : StoreError) : (Store.commit batch s).result = .error e ↔
    ∃ why, e = .constraintViolation why ∧ IsFirstFault Offends batch why

theorem FailsAtFirst.of_error_iff (hbad : ∀ t, (∃ why, Offends t why) ↔ IsBad t)
    (h : ∀ e, (Store.commit batch s).result = .error e ↔
      ∃ why, e = .constraintViolation why ∧ IsFirstFault Offends batch why) :
    FailsAtFirst IsBad Offends batch s where
  error_iff := h
  fails_iff := by
    simp only [h, ← hbad, ← exists_isFirstFault_iff]
    exact ⟨fun ⟨_, why, _, hwhy⟩ => ⟨why, hwhy⟩, fun ⟨why, hwhy⟩ => ⟨_, why, rfl, hwhy⟩⟩

/-- A commit that fails leaves a given store, and whatever is done with the store afterwards is
answered as it is by that one. -/
def LeavesOnFailure (batch : List Transfer) (s spent : τ) : Prop :=
  ∀ e, (Store.commit batch s).result = .error e → (Store.commit batch s).store = spent ∧
    ∀ (reopen : τ → Answer × τ) (ops : List Operation),
      answers reopen (.commit batch :: ops) s = .ofCommit (.error e) :: answers reopen ops spent

theorem LeavesOnFailure.of_store
    (h : ∀ e, (Store.commit batch s).result = .error e → (Store.commit batch s).store = spent) :
    LeavesOnFailure batch s spent := by
  intro e he
  refine ⟨h e he, fun reopen ops => ?_⟩
  rw [answers, Operation.perform]
  simp only [he, h e he]

end Failing

namespace MemoryStore

variable {s : MemoryStore} {batch : List Transfer} {e : StoreError}

/-- The search for an amount without a place finds the first offence. -/
theorem isFirstFault_iff_find? {why : Violation} : IsFirstFault Offends batch why ↔
    ∃ t, batch.find? isOutside = some t ∧ why = .amountRange t.amount := by
  have hclean : ∀ t, (∀ why, ¬Offends t why) ↔ isOutside t = false := fun t => by
    rw [← not_exists, exists_offends_iff, t.amount.isOutside_iff, ← isOutside_iff,
      Bool.not_eq_true]
  simp only [IsFirstFault, hclean, List.find?_eq_some_iff_append, Bool.not_eq_true']
  constructor
  · rintro ⟨front, t, behind, hbatch, hfront, ⟨houtside⟩⟩
    have ht := (isOutside_iff t).2 (t.amount.isOutside_iff.1 houtside)
    exact ⟨t, ⟨ht, front, behind, hbatch, hfront⟩, rfl⟩
  · rintro ⟨t, ⟨ht, front, behind, hbatch, hfront⟩, rfl⟩
    have houtside := t.amount.isOutside_iff.2 ((isOutside_iff t).1 ht)
    exact ⟨front, t, behind, hbatch, hfront, .amount houtside⟩

theorem commit_eq_error_iff (hs : s.armed = none) : (commit batch s).result = .error e ↔
    ∃ why, e = .constraintViolation why ∧ IsFirstFault Offends batch why := by
  simp only [isFirstFault_iff_find?]
  rw [commit, hs]
  cases hfind : batch.find? isOutside with
  | none => simp
  | some t => simp [eq_comm]

/-- A failed commit uses up the failure that was armed and changes nothing else. -/
theorem store_of_error (h : (commit batch s).result = .error e) :
    (commit batch s).store = { s with armed := none } := by
  cases hs : s.armed with
  | some armed => rw [commit, hs]
  | none =>
    have hsame : s = { s with armed := none } := by rw [← hs]
    by_cases hb : ∀ t ∈ batch, t.amount.IsInRange
    · rw [commit_eq_ok hs hb] at h
      cases h
    · obtain ⟨why, hc⟩ := commit_eq_error hs hb
      rw [hc]
      exact hsame

end MemoryStore

namespace Database

variable {db : Database} {batch : List Transfer} {e : StoreError}

/-- A failed commit leaves the database as it was. Either it may not be written, or its table
refuses the batch, or no journal can be made for what is new. -/
theorem commit_of_error (h : (commit batch db).result = .error e) :
    (commit batch db).store = db ∧
      ((db.readOnly = true ∧ ∃ t ts, batch = t :: ts ∧ refusal t = e) ∨
        (db.table.commit batch).result = .error e ∨
        db.blocked = true ∧ e = .database .cannotOpenBeside) := by
  cases hr : (db.table.commit batch).result with
  | error wrong =>
    unfold commit at h ⊢
    split at h
    · rename_i t ts hread
      exact ⟨rfl, .inl ⟨hread, t, ts, rfl, Except.error.inj h⟩⟩
    · simp only [hr] at h ⊢
      exact ⟨trivial, .inr (.inl h)⟩
  | ok n =>
    unfold commit at h ⊢
    split at h
    · rename_i t ts hread
      exact ⟨rfl, .inl ⟨hread, t, ts, rfl, Except.error.inj h⟩⟩
    · obtain _ | n := n
      · simp [hr] at h
      · cases hb : db.blocked with
        | false => simp [hr, hb] at h
        | true =>
          simp only [hr, hb, if_true] at h ⊢
          exact ⟨trivial, .inr (.inr ⟨trivial, (Except.error.inj h).symm⟩)⟩

/-- A number that is too large is the first thing held against a transfer. -/
theorem offends_of_refusal {t : Transfer} {why : Violation}
    (h : refusal t = .constraintViolation why) : Table.Offends t why := by
  cases hwhich : Table.oversized t with
  | none =>
    rw [refusal, hwhich] at h
    cases h
  | some which =>
    rw [refusal, hwhich] at h
    rw [← Table.insert_eq_error_iff [], Table.insert, hwhich,
      ← StoreError.constraintViolation.inj h]

/-- With a number that fits, the fault is the database's own. -/
theorem refusal_cases (t : Transfer) :
    (∃ why, refusal t = .constraintViolation why) ∨ ∃ why, refusal t = .database why := by
  unfold refusal
  split
  · exact .inl ⟨_, rfl⟩
  · exact .inr ⟨_, rfl⟩

/-- A database fails for the first offender, or because it may not be changed. -/
theorem error_cases (h : (commit batch db).result = .error e) :
    (∃ why, e = .constraintViolation why ∧ IsFirstFault Table.Offends batch why) ∨
      (db.readOnly = true ∨ db.blocked = true) ∧ ∃ why, e = .database why := by
  obtain ⟨-, ⟨hread, t, ts, rfl, rfl⟩ | htable | ⟨hblocked, rfl⟩⟩ := commit_of_error h
  · rcases refusal_cases t with ⟨why, hwhy⟩ | hwhy
    · exact .inl ⟨why, hwhy, isFirstFault_cons_iff.2 (.inl (offends_of_refusal hwhy))⟩
    · exact .inr ⟨.inl hread, hwhy⟩
  · exact .inl (Table.commit_eq_error_iff.1 htable)
  · exact .inr ⟨.inr hblocked, _, rfl⟩

/-- An offender fails its batch, whatever else is in the way. -/
theorem exists_error_of_offends (h : ∃ t ∈ batch, ∃ why, Table.Offends t why) :
    ∃ e, (commit batch db).result = .error e := by
  cases hr : (commit batch db).result with
  | error e => exact ⟨e, rfl⟩
  | ok n =>
    obtain ⟨t, ht, why, hwhy⟩ := h
    obtain ⟨hnumbers, hplace⟩ := hasPlace_of_commit hr t ht
    have hstorable : t.IsStorable := ⟨hnumbers, t.amount.isInRange_iff.2 hplace⟩
    exact absurd hwhy (Table.forall_not_offends_iff.2 hstorable why)

/-- A database that may be changed fails as its table does. -/
theorem commit_eq_error_iff (hw : db.readOnly = false) (hb : db.blocked = false) :
    (commit batch db).result = .error e ↔
      ∃ why, e = .constraintViolation why ∧ IsFirstFault Table.Offends batch why := by
  rw [(commit_spec hw hb batch).1]
  exact Table.commit_eq_error_iff

end Database

/-! ### Both stores -/

/-- **Commits fail exactly on offenders, and then change nothing.** Whatever is stored, a database
that may be changed refuses the batches in which a number or an amount is outside its column, also
under a name that is taken, and names the first offender in the order of the batch and what is first
held against it; the store in memory does so for amounts. Otherwise only a database that may not be
changed fails, and an offender fails there too. After a failure of any kind, every answer is as if
there had been no commit, but that a failure armed in memory is used up. -/
theorem commits_fail_on_offenders (batch : List Transfer) :
    (∀ db : Database,
      (db.readOnly = false → db.blocked = false →
        FailsAtFirst (fun t => storedMax < t.logIndex.toNat ∨ storedMax < t.blockNumber.toNat ∨
          t.amount.toInt < 0 ∨ Numeric.precision < t.amount.digitCount) Table.Offends batch db) ∧
      ((∃ t ∈ batch, ∃ why, Table.Offends t why) →
        ∃ e, (Store.commit batch db).result = .error e) ∧
      (∀ e, (Store.commit batch db).result = .error e →
        (∃ why, e = .constraintViolation why ∧ IsFirstFault Table.Offends batch why) ∨
          (db.readOnly = true ∨ db.blocked = true) ∧ ∃ why, e = .database why) ∧
      LeavesOnFailure batch db db) ∧
    ∀ s : MemoryStore,
      (s.armed = none →
        FailsAtFirst (fun t => t.amount.toInt < 0 ∨ Numeric.precision < t.amount.digitCount)
          MemoryStore.Offends batch s) ∧
      (∀ e, s.armed = some e → (Store.commit batch s).result = .error e) ∧
      LeavesOnFailure batch s { s with armed := none } := by
  refine ⟨fun db => ⟨fun hw hb => ?_, ?_, ?_, ?_⟩, fun s => ⟨fun hs => ?_, ?_, ?_⟩⟩
  · exact .of_error_iff (fun _ => Table.exists_offends_iff) fun e =>
      Database.commit_eq_error_iff hw hb
  · exact Database.exists_error_of_offends
  · exact fun e he => Database.error_cases he
  · exact .of_store fun e he => (Database.commit_of_error he).1
  · exact .of_error_iff (fun _ => MemoryStore.exists_offends_iff) fun e =>
      MemoryStore.commit_eq_error_iff hs
  · intro e he
    show (MemoryStore.commit batch s).result = _
    rw [MemoryStore.commit, he]
  · exact .of_store fun e he => MemoryStore.store_of_error he

/-- The second transfer has a name that is stored and an amount below zero, and the third a log
index that is too large; the one in front of them is fine. -/
theorem commits_fail_on_taken_name :
    let batch :=
      [sampleTransfer 2 6, sampleTransfer 1 (-5), sampleTransfer (.ofNat (storedMax + 1)) 0]
    let db : Database := { table := ⟨[Cells.ofTransfer (sampleTransfer 1 5)]⟩ }
    let s : MemoryStore := { rows := [sampleTransfer 1 5] }
    (db.readOnly = false ∧ db.blocked = false ∧ s.armed = none) ∧
      ((Store.commit batch db).result = .error (.constraintViolation .amountCheck) ∧
        (Store.commit batch db).store = db) ∧
      (Store.commit batch s).result =
          .error (.constraintViolation (.amountRange (Amount.ofInt (-5)))) ∧
        (Store.commit batch s).store = s := by
  intro batch db s
  have hfirst : (sampleTransfer 2 6).IsStorable := by decide +kernel
  have hnumbers : (sampleTransfer 1 (-5)).HasStoredNumbers := by decide +kernel
  have houtside : (sampleTransfer 1 (-5)).amount.IsOutside := .inl (by decide +kernel)
  have hin : ¬(sampleTransfer 2 6).amount.IsOutside := fun h =>
    (Amount.isOutside_iff _).1 h hfirst.amount
  obtain ⟨hdatabase, hmemory⟩ := commits_fail_on_offenders batch
  obtain ⟨htable, -, -, hkept⟩ := hdatabase db
  obtain ⟨hrows, -, hsame⟩ := hmemory s
  have hdb : (Store.commit batch db).result = .error (.constraintViolation .amountCheck) :=
    ((htable rfl rfl).error_iff _).2 ⟨_, rfl, [_], _, [_], rfl,
      List.forall_mem_singleton.2 (Table.forall_not_offends_iff.2 hfirst),
      .amount hnumbers houtside⟩
  have hs : (Store.commit batch s).result =
      .error (.constraintViolation (.amountRange (Amount.ofInt (-5)))) :=
    ((hrows rfl).error_iff _).2 ⟨_, rfl, [_], _, [_], rfl,
      List.forall_mem_singleton.2 (not_exists.1 (mt MemoryStore.exists_offends_iff.1 hin)),
      .amount houtside⟩
  exact ⟨⟨rfl, rfl, rfl⟩, ⟨hdb, (hkept _ hdb).1⟩, hs, (hsame _ hs).1⟩

end TransferLedger
