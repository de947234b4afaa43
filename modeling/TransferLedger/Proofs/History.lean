import Mathlib.Tactic
import TransferLedger.Proofs.StoreAgreement

/-!
# The history of a store

Commits succeed or fail, failures are armed, and a database is closed and opened again. Through all
of that rows are only added, each of a name that is new and with content that its columns admit.

* `LawfulStore` for `Database` and for `Housed`: a database obeys the laws of its table;
* `Change`, `Change.applyAll`: what happens to a store, one thing after another;
* `LawfulStore.IsLedger`: the rows are those of admitted transfers, no two of one name;
* `LawfulStore.IsHarmless.applyAll_spec`: a ledger stays one, and its rows stay in front;
* `stores_keep_ledgers`: this holds of the store in memory and of databases.
-/

namespace TransferLedger

open LawfulStore

/-! ### Databases as stores -/

namespace Database

/-- A database commits as its table does, or it refuses the batch and stays as it was. -/
theorem commit_cases (batch : List Transfer) (db : Database) :
    (∃ e, (commit batch db).result = .error e) ∧ (commit batch db).store = db ∨
      (commit batch db).result = (db.table.commit batch).result ∧
        (commit batch db).store.table.rows = (db.table.commit batch).store.rows := by
  cases hr : (db.table.commit batch).result with
  | error e =>
    have hrows := rows_of_error (s := db.table) hr
    unfold commit
    split
    · exact .inl ⟨⟨_, rfl⟩, rfl⟩
    · simp only [hr]
      exact .inr ⟨trivial, hrows.symm⟩
  | ok n =>
    unfold commit
    split
    · exact .inl ⟨⟨_, rfl⟩, rfl⟩
    · simp only [hr]
      obtain _ | n := n
      · exact .inr ⟨rfl, (rows_of_ok_zero (s := db.table) hr).symm⟩
      · by_cases hb : db.blocked = true
        · simp [hb]
        · simp [hb]

end Database

instance : LawfulStore Database Cells (Cell × Cell) where
  rows db := db.table.rows
  row := Cells.ofTransfer
  name := Cells.key
  name_row_iff := Cells.key_ofTransfer_iff
  IsReady db := db.readOnly = false ∧ db.blocked = false
  rows_of_error {db batch e} h := by
    show (Database.commit batch db).store.table.rows = db.table.rows
    rcases Database.commit_cases batch db with ⟨-, hs⟩ | ⟨hr, hs⟩
    · rw [hs]
    · rw [hs]
      exact rows_of_error (s := db.table) (hr.symm.trans h)
  rows_of_ok {db batch n} h := by
    show (Database.commit batch db).store.table.rows = _ ∧
      _ = (Database.commit batch db).store.table.rows.length
    rcases Database.commit_cases batch db with ⟨⟨e, he⟩, -⟩ | ⟨hr, hs⟩
    · cases he.symm.trans h
    · rw [hs]
      exact rows_of_ok (s := db.table) (hr.symm.trans h)
  isReady_commit {db} hdb batch := by
    obtain ⟨-, -, hw, hb, -⟩ := Database.commit_spec hdb.1 hdb.2 batch
    exact ⟨hw, hb⟩
  exists_ok {db batch} hdb hbatch := by
    obtain ⟨n, hn⟩ := exists_ok (s := db.table) trivial hbatch
    exact ⟨n, (Database.commit_spec hdb.1 hdb.2 batch).1.trans hn⟩

instance : LawfulStore Housed Cells (Cell × Cell) where
  rows s := s.database.table.rows
  row := Cells.ofTransfer
  name := Cells.key
  name_row_iff := Cells.key_ofTransfer_iff
  IsReady s := IsReady s.database
  rows_of_error {s _ _} h := rows_of_error (s := s.database) h
  rows_of_ok {s _ _} h := rows_of_ok (s := s.database) h
  isReady_commit {s} hs batch := isReady_commit (s := s.database) hs batch
  exists_ok {s _} hs hbatch := exists_ok (s := s.database) hs hbatch

/-! ### What happens to a store -/

/-- What may happen to a store: a commit, or something of another kind. -/
inductive Change (δ : Type)
  | commit (batch : List Transfer)
  | other (event : δ)

namespace Change

variable {τ δ : Type} [Store τ] (other : δ → τ → τ)

/-- The store after a change, whether a commit succeeds or fails. -/
def apply (s : τ) : Change δ → τ
  | .commit batch => (Store.commit batch s).store
  | .other event => other event s

/-- The store after one change after another. -/
def applyAll (changes : List (Change δ)) (s : τ) : τ := changes.foldl (apply other) s

end Change

namespace LawfulStore

variable {τ ρ κ δ : Type} [DecidableEq κ] [Store τ] [LawfulStore τ ρ κ]

/-- The rows are those of transfers with a property, no two of one name. -/
def IsLedger (P : Transfer → Prop) (s : τ) : Prop :=
  ∃ held : List Transfer, rows s = held.map (row τ) ∧ (held.map Transfer.key).Nodup ∧
    ∀ t ∈ held, P t

/-- Whatever happens to a store from a start on, it is a ledger. What happens later leaves its rows
in front, and adds no other row of a name that is taken. A commit that succeeds adds as many rows as
it tells, and no more than there are transfers in its batch. -/
def KeepsLedger (other : δ → τ → τ) (P : Transfer → Prop) (start : τ) : Prop :=
  ∀ earlier : List (Change δ),
    let s := Change.applyAll other earlier start
    IsLedger P s ∧
      (∀ later : List (Change δ),
        let s' := Change.applyAll other later s
        rows s <+: rows s' ∧ ∀ r ∈ rows s, ∀ r' ∈ rows s', name τ r' = name τ r → r' = r) ∧
      ∀ batch n, (Store.commit batch s).result = .ok n →
        (rows (Store.commit batch s).store).length = (rows s).length + n ∧ n ≤ batch.length

variable {P : Transfer → Prop} {s : τ}

theorem isLedger_of_rows_eq {s' : τ} (h : IsLedger P s) (hrows : rows s' = rows s) :
    IsLedger P s' := by
  unfold IsLedger
  rw [hrows]
  exact h

/-- No two rows of a ledger have one name. -/
theorem IsLedger.nodup (h : IsLedger P s) : ((rows s).map (name τ)).Nodup := by
  obtain ⟨held, hrows, hnodup, -⟩ := h
  rw [hrows, List.map_map]
  rw [List.Nodup, List.pairwise_map] at hnodup ⊢
  refine hnodup.imp ?_
  intro a b hab hname
  exact hab ((name_row_iff a b).1 hname)

/-! ### One change -/

/-- A commit leaves the rows in front, whether it succeeds or fails. -/
theorem prefix_commit (s : τ) (batch : List Transfer) :
    rows s <+: rows (Store.commit batch s).store := by
  cases hr : (Store.commit batch s).result with
  | error e => rw [rows_of_error hr]
  | ok n =>
    rw [(rows_of_ok hr).1]
    exact prefix_enrolAll _ _ _

/-- A commit keeps a ledger, when only batches of admitted transfers succeed. -/
theorem IsLedger.commit (h : IsLedger P s) {batch : List Transfer}
    (hbatch : ∀ n, (Store.commit batch s).result = .ok n → ∀ t ∈ batch, P t) :
    IsLedger P (Store.commit batch s).store := by
  cases hr : (Store.commit batch s).result with
  | error e => exact isLedger_of_rows_eq h (rows_of_error hr)
  | ok n =>
    obtain ⟨held, hrows, hnodup, hheld⟩ := h
    refine ⟨enrolAll Transfer.key held batch, ?_, nodup_enrolAll _ hnodup batch, ?_⟩
    · rw [(rows_of_ok hr).1, hrows, enrolAll_map_row]
    · intro t ht
      rcases mem_enrolAll _ ht with ht | ht
      · exact hheld t ht
      · exact hbatch n hr t ht

/-! ### A whole history -/

/-- Only admitted transfers are committed, and anything but a commit leaves the rows alone, as long
as something holds that every change keeps. -/
structure IsHarmless (other : δ → τ → τ) (P : Transfer → Prop) (Inv : τ → Prop) : Prop where
  admits : ∀ (s : τ) (batch : List Transfer) (n : ℕ), (Store.commit batch s).result = .ok n →
    ∀ t ∈ batch, P t
  keeps : ∀ (s : τ) (batch : List Transfer), Inv s → Inv (Store.commit batch s).store
  spares : ∀ (event : δ) (s : τ), Inv s → IsLedger P s →
    rows (other event s) = rows s ∧ Inv (other event s)

variable {other : δ → τ → τ} {Inv : τ → Prop} (h : IsHarmless other P Inv)
include h

theorem IsHarmless.apply_spec (hs : Inv s) (hl : IsLedger P s) (change : Change δ) :
    Inv (change.apply other s) ∧ IsLedger P (change.apply other s) ∧
      rows s <+: rows (change.apply other s) := by
  cases change with
  | commit batch => exact ⟨h.keeps s batch hs, hl.commit (h.admits s batch), prefix_commit s batch⟩
  | other event =>
    obtain ⟨hrows, hinv⟩ := h.spares event s hs hl
    refine ⟨hinv, isLedger_of_rows_eq hl hrows, ?_⟩
    rw [Change.apply, hrows]

/-- A ledger stays one, and its rows stay in front. -/
theorem IsHarmless.applyAll_spec (hs : Inv s) (hl : IsLedger P s) (changes : List (Change δ)) :
    Inv (Change.applyAll other changes s) ∧ IsLedger P (Change.applyAll other changes s) ∧
      rows s <+: rows (Change.applyAll other changes s) := by
  induction changes generalizing s with
  | nil => exact ⟨hs, hl, List.prefix_rfl⟩
  | cons change changes ih =>
    obtain ⟨hs', hl', hfront⟩ := h.apply_spec hs hl change
    obtain ⟨hinv, hledger, hlater⟩ := ih hs' hl'
    exact ⟨hinv, hledger, hfront.trans hlater⟩

/-- A store that starts empty keeps a ledger. -/
theorem IsHarmless.keepsLedger {start : τ} (hstart : Inv start) (hempty : rows start = []) :
    KeepsLedger other P start := by
  intro earlier s
  have hledger : IsLedger P start := ⟨[], hempty, List.nodup_nil, by simp⟩
  obtain ⟨hinv, hl, -⟩ := h.applyAll_spec hstart hledger earlier
  refine ⟨hl, ?_, ?_⟩
  · intro later s'
    obtain ⟨-, hl', hfront⟩ := h.applyAll_spec hinv hl later
    refine ⟨hfront, ?_⟩
    intro r hr r' hr' hname
    exact List.inj_on_of_nodup_map hl'.nodup hr' (hfront.subset hr) hname
  · intro batch n hn
    obtain ⟨hrows, hlength⟩ := rows_of_ok hn
    have hle := length_enrolAll_le (name τ) (rows s) (batch.map (row τ))
    rw [← hrows, List.length_map] at hle
    omega

end LawfulStore

/-! ### What each store admits -/

/-- The column has a place for an amount: no sign, and no more digits than the column. -/
def Amount.HasPlace (a : Amount) : Prop :=
  a.negative = false ∧ a.digitCount ≤ Numeric.precision

/-- The store in memory looks at the amounts, unless a failure comes first. -/
theorem MemoryStore.hasPlace_of_commit {s : MemoryStore} {batch : List Transfer} {n : ℕ}
    (h : (Store.commit batch s).result = .ok n) : ∀ t ∈ batch, t.amount.HasPlace := by
  change (commit batch s).result = _ at h
  cases ha : s.armed with
  | some error =>
    rw [commit, ha] at h
    cases h
  | none =>
    by_contra hb
    have hrange : ¬∀ t ∈ batch, t.amount.IsInRange := fun hr =>
      hb fun t ht => t.amount.isInRange_iff.1 (hr t ht)
    obtain ⟨why, hc⟩ := commit_eq_error ha hrange
    rw [hc] at h
    cases h

/-- The table looks at the numbers as well. -/
theorem Table.hasPlace_of_commit {table : Table} {batch : List Transfer} {n : ℕ}
    (h : (commit batch table).result = .ok n) :
    ∀ t ∈ batch, t.HasStoredNumbers ∧ t.amount.HasPlace := by
  by_contra hb
  have hstorable : ¬∀ t ∈ batch, t.IsStorable := fun hs =>
    hb fun t ht => ⟨(hs t ht).numbers, t.amount.isInRange_iff.1 (hs t ht).amount⟩
  obtain ⟨why, hc⟩ := commit_eq_error hstorable
  rw [hc] at h
  cases h

theorem Database.hasPlace_of_commit {db : Database} {batch : List Transfer} {n : ℕ}
    (h : (Store.commit batch db).result = .ok n) :
    ∀ t ∈ batch, t.HasStoredNumbers ∧ t.amount.HasPlace := by
  rcases commit_cases batch db with ⟨⟨e, he⟩, -⟩ | ⟨hr, -⟩
  · cases he.symm.trans h
  · exact Table.hasPlace_of_commit (hr.symm.trans h)

/-- A database that serves goes on serving through commits, and opens again with the same rows. -/
theorem Housed.isHarmless [FileFormat] [LawfulFileFormat] (l : Location) (p : Place) :
    IsHarmless (fun (_ : Unit) s => (Housed.reopen l p s).2)
      (fun t => t.HasStoredNumbers ∧ t.amount.HasPlace)
      fun s => Database.IsServing l p s.database s.directory where
  admits _ _ _ h := Database.hasPlace_of_commit h
  keeps s batch hs := by
    obtain ⟨-, -, hw, hb, hplace, hlog⟩ := Database.commit_spec hs.writable hs.unblocked batch
    exact ⟨hs.clear, hplace.trans hs.place, hw, hb, hlog.trans hs.log⟩
  spares event s hs hl := by
    have hstored : ∀ r ∈ s.database.table.rows, r.IsStored := by
      obtain ⟨held, hrows, -, hheld⟩ := hl
      intro r hr
      change s.database.table.rows = _ at hrows
      rw [hrows] at hr
      obtain ⟨t, ht, rfl⟩ := List.mem_map.1 hr
      exact Cells.isStored_ofTransfer (hheld t ht).1
    obtain ⟨again, hread, htable, hserving⟩ := Database.read_close hs hstored
    have hreopen : (Housed.reopen l p s).2 =
        ⟨again, (Database.read l p (s.database.close s.directory)).directory⟩ := by
      rw [Housed.reopen, hread]
    rw [hreopen]
    exact ⟨congrArg Table.rows htable, hserving⟩

/-- A failure that is armed leaves the store in memory as it was. -/
theorem MemoryStore.isHarmless :
    IsHarmless (fun error (s : MemoryStore) => s.failNext error) (fun t => t.amount.HasPlace)
      fun _ => True where
  admits _ _ _ h := MemoryStore.hasPlace_of_commit h
  keeps _ _ _ := trivial
  spares _ _ _ _ := ⟨rfl, trivial⟩

/-- Nothing but commits happens to a database without a file. -/
theorem Database.isHarmless :
    IsHarmless (fun (event : Empty) (_ : Database) => event.elim)
      (fun t => t.HasStoredNumbers ∧ t.amount.HasPlace) fun _ => True where
  admits _ _ _ h := Database.hasPlace_of_commit h
  keeps _ _ _ := trivial
  spares event := event.elim

/-- **Stores only ever add rows.** From an empty store on, whatever is committed, with success or
not, no two rows have one name, what is stored stays in front as it is, amounts and numbers have
their places in the columns, and a commit that succeeds tells by how much the store has grown. In
memory failures may be armed at any time, and a database in a file of any lawful format may be
closed and opened again. -/
theorem stores_keep_ledgers [FileFormat] [LawfulFileFormat] :
    KeepsLedger (fun error (s : MemoryStore) => s.failNext error) (fun t => t.amount.HasPlace)
        {} ∧
      (∀ (l : Location) (p : Place) (d : Directory), Database.IsUnhindered l p d →
        d.lookup p = some (.file []) →
        let opened := Database.read l p d
        ∃ db, opened.result = .ok db ∧
          KeepsLedger (fun (_ : Unit) s => (Housed.reopen l p s).2)
            (fun t => t.HasStoredNumbers ∧ t.amount.HasPlace) ⟨db, opened.directory⟩) ∧
      KeepsLedger (fun (event : Empty) (_ : Database) => event.elim)
        (fun t => t.HasStoredNumbers ∧ t.amount.HasPlace) {} := by
  refine ⟨MemoryStore.isHarmless.keepsLedger trivial rfl, ?_,
    Database.isHarmless.keepsLedger trivial rfl⟩
  intro l p d hd hempty opened
  obtain ⟨db, hread, htable, hserving⟩ := Database.read_empty hd hempty
  refine ⟨db, hread, (Housed.isHarmless l p).keepsLedger hserving ?_⟩
  show db.table.rows = []
  rw [htable]

theorem stores_keep_ledgers_on_sample :
    let p : Place := [Text.Utf8.encode "a.db".toList]
    let l : Location := { path := Text.Utf8.encode "a.db".toList }
    let d := ({} : Directory).put p (.file [])
    let after := Change.applyAll fun (_ : Unit) s => (Housed.reopen l p s).2
    Database.IsUnhindered l p d ∧ d.lookup p = some (.file []) ∧
      ∃ db, (Database.read l p d).result = .ok db ∧
        let s := after [.commit [sampleTransfer 1 5], .other ()]
          ⟨db, (Database.read l p d).directory⟩
        IsLedger (fun t => t.HasStoredNumbers ∧ t.amount.HasPlace) s ∧
          rows s <+: rows (after [.commit [sampleTransfer 1 6, sampleTransfer 2 7]] s) := by
  intro p l d after
  have hd : Database.IsUnhindered l p d := by
    refine ⟨rfl, rfl, rfl, rfl, ?_, ?_, ?_⟩ <;> decide +kernel
  have hempty : d.lookup p = some (.file []) := by decide +kernel
  obtain ⟨db, hread, hkeeps⟩ := stores_keep_ledgers.2.1 l p d hd hempty
  obtain ⟨hledger, hlater, -⟩ := hkeeps [.commit [sampleTransfer 1 5], .other ()]
  obtain ⟨hfront, -⟩ := hlater [.commit [sampleTransfer 1 6, sampleTransfer 2 7]]
  exact ⟨hd, hempty, db, hread, hledger, hfront⟩

end TransferLedger
