import Mathlib.Tactic
import TransferLedger.Proofs.DatabaseFile
import TransferLedger.Proofs.LawfulStore

/-!
# The two stores answer alike

* `Cells.toTransfer_ofTransfer`: a transfer reads back from its row;
* `Table.recent_ofTransfer`: a table lists what the store in memory lists;
* `Operation`, `Answer`, `answers`: what a store answers to one operation after another;
* `Database.Agrees`: the rows of a database are those of the transfers in memory;
* `answers_agree`: a database that starts empty answers as the store in memory does, also when it is
  closed and opened again in between.
-/

namespace TransferLedger

/-! ### Reading rows -/

/-- A transfer reads back from its row. -/
theorem Cells.toTransfer_ofTransfer (t : Transfer) : (ofTransfer t).toTransfer = .ok t := by
  have hword : ∀ (f : Transfer.Field) (n : UInt64), TypedRow.word f n.toNat = .ok n := by
    intro f n
    simp [TypedRow.word]
  obtain ⟨txHash, logIndex, blockNumber, token, sender, receiver, amount⟩ := t
  cases receiver with
  | none =>
    simp [toTransfer, typed, textIn, integerIn, optionalTextIn, get, ofTransfer,
      TypedRow.toTransfer, TypedRow.bytes, TypedRow.optionalBytes, TypedRow.amountIn, hword,
      Hex.decode_encode, Amount.parse_toText, bind, Except.bind, pure, Except.pure]
  | some a =>
    simp [toTransfer, typed, textIn, integerIn, optionalTextIn, get, ofTransfer,
      TypedRow.toTransfer, TypedRow.bytes, TypedRow.optionalBytes, TypedRow.amountIn, hword,
      Hex.decode_encode, Amount.parse_toText, bind, Except.bind, pure, Except.pure]

/-- The integers of a row are stored integers when the numbers of its transfer are. -/
theorem Cells.isStored_ofTransfer {t : Transfer} (h : t.HasStoredNumbers) :
    (ofTransfer t).IsStored := by
  have hnat : ∀ n : ℕ, n ≤ storedMax → (Cell.integer n).IsStored := fun n hn =>
    ⟨by omega, by exact_mod_cast hn⟩
  intro f
  cases f with
  | logIndex => exact hnat _ h.2
  | blockNumber => exact hnat _ h.1
  | receiver => cases hr : t.receiver <;> simp [get, ofTransfer, hr, Cell.IsStored]
  | _ => trivial

namespace Table

/-- Rows are listed in the order of their transfers. -/
theorem newerOrSame_ofTransfer (a b : Transfer) :
    newerOrSame (Cells.ofTransfer a) (Cells.ofTransfer b) = TransferLedger.newerOrSame a b := by
  rw [Bool.eq_iff_iff]
  simp only [newerOrSame, Cells.ofTransfer, Cell.compare, TransferLedger.newerOrSame,
    Ordering.isLE_then_iff_or, compare_lt_iff_lt, compare_eq_iff_eq, Std.isLE_compare,
    Int.ofNat_lt, Int.ofNat_inj, Int.ofNat_le, UInt64.toNat_inj, ← UInt64.lt_iff_toNat_lt,
    ← UInt64.le_iff_toNat_le, Bool.or_eq_true, Bool.and_eq_true, decide_eq_true_eq, beq_iff_eq]

theorem readAll_map (ts : List Transfer) : readAll (ts.map Cells.ofTransfer) = .ok ts := by
  induction ts with
  | nil => rfl
  | cons t ts ih => simp [readAll, Cells.toTransfer_ofTransfer, ih]

/-- A table lists what the store in memory lists. -/
theorem recent_ofTransfer (ts : List Transfer) (limit : ℕ) :
    recent limit ⟨ts.map Cells.ofTransfer⟩ = .ok (MemoryStore.recent limit { rows := ts }) := by
  have hsort : (ts.map Cells.ofTransfer).mergeSort newerOrSame =
      (ts.mergeSort TransferLedger.newerOrSame).map Cells.ofTransfer := by
    -- Both sorts are stable, so rows that compare equal stay as their transfers do.
    rw [List.map_mergeSort]
    intro a _ b _
    exact (newerOrSame_ofTransfer a b).symm
  rw [recent, listing, hsort, ← List.map_take, readAll_map]
  rfl

/-- A limit beyond the largest stored integer limits nothing, so it may be cut down to that. -/
theorem recent_min_storedMax {table : Table} (h : table.rows.length ≤ storedMax) (limit : ℕ) :
    recent (min limit storedMax) table = recent limit table := by
  have hlength : table.listing.length ≤ storedMax := by
    rw [listing, List.length_mergeSort]
    exact h
  have htake : table.listing.take (min limit storedMax) = table.listing.take limit := by
    rw [← List.take_take, List.take_of_length_le hlength]
  rw [recent, recent, htake]

end Table

/-! ### Operations -/

/-- What can be done with a store. -/
inductive Operation
  | commit (batch : List Transfer)
  | recent (limit : ℕ)
  | count
  /-- Closing the store and opening it again. -/
  | reopen
  deriving DecidableEq

/-- What a store answers. Of a violated constraint only that it is violated counts. -/
inductive Answer
  | inserted (n : ℕ)
  | refused
  | listed (transfers : List Transfer)
  | counted (n : ℕ)
  | reopened
  | failed (error : StoreError)
  deriving DecidableEq

/-- The answer in the result of a commit. -/
def Answer.ofCommit : Except StoreError ℕ → Answer
  | .ok n => .inserted n
  | .error (.constraintViolation _) => .refused
  | .error error => .failed error

/-- The answer in a listing. -/
def Answer.ofListing : Except StoreError (List Transfer) → Answer
  | .ok ts => .listed ts
  | .error error => .failed error

section Answers

variable {τ : Type} [Store τ] (reopen : τ → Answer × τ)

/-- What a store answers to an operation, and the store afterwards. -/
def Operation.perform (op : Operation) (s : τ) : Answer × τ :=
  match op with
  | .commit batch =>
    let c := Store.commit batch s
    (.ofCommit c.result, c.store)
  | .recent limit => (.ofListing (Store.recent limit s), s)
  | .count => (.counted (Store.count s), s)
  | .reopen => reopen s

/-- What a store answers to one operation after another. -/
def answers : List Operation → τ → List Answer
  | [], _ => []
  | op :: ops, s => (op.perform reopen s).1 :: answers ops (op.perform reopen s).2

/-- Stores answer alike when each operation keeps them related and is answered alike. -/
theorem answers_eq_of_simulation {τ' : Type} [Store τ'] {reopen' : τ' → Answer × τ'}
    {R : τ → τ' → Prop} {ops : List Operation}
    (hstep : ∀ op ∈ ops, ∀ s s', R s s' →
      (op.perform reopen s).1 = (op.perform reopen' s').1 ∧
        R (op.perform reopen s).2 (op.perform reopen' s').2)
    {s : τ} {s' : τ'} (h : R s s') : answers reopen ops s = answers reopen' ops s' := by
  induction ops generalizing s s' with
  | nil => rfl
  | cons op ops ih =>
    obtain ⟨hanswer, hnext⟩ := hstep op List.mem_cons_self s s' h
    rw [answers, answers, hanswer, ih (fun o ho => hstep o (List.mem_cons_of_mem op ho)) hnext]

end Answers

/-- All transfers that are to be committed have numbers that are stored integers. -/
def Operation.HasStoredNumbers : Operation → Prop
  | .commit batch => ∀ t ∈ batch, t.HasStoredNumbers
  | _ => True

instance (op : Operation) : Decidable op.HasStoredNumbers :=
  match op with
  | .commit batch => inferInstanceAs (Decidable (∀ t ∈ batch, t.HasStoredNumbers))
  | .recent _ | .count | .reopen => isTrue trivial

/-- In memory, opening again is going on. -/
def MemoryStore.reopen (s : MemoryStore) : Answer × MemoryStore := (.reopened, s)

/-- An open database with the directory that its file is in. -/
structure Housed where
  database : Database
  directory : Directory

namespace Housed

instance : Store Housed where
  commit batch s :=
    let c := Store.commit batch s.database
    { result := c.result, store := { s with database := c.store }, events := c.events }
  recent limit s := Store.recent limit s.database
  count s := Store.count s.database

/-- Closes a database and opens it again. -/
def reopen [FileFormat] (l : Location) (p : Place) (s : Housed) : Answer × Housed :=
  let a := Database.read l p (s.database.close s.directory)
  match a.result with
  | .ok db => (.reopened, ⟨db, a.directory⟩)
  | .error why => (.failed (.database why), { s with directory := a.directory })

end Housed

/-! ### Agreement -/

namespace Database

/-- A database may be written, and its rows are those of the transfers in memory. -/
structure Agrees (db : Database) (s : MemoryStore) : Prop where
  unarmed : s.armed = none
  rows : db.table.rows = s.rows.map Cells.ofTransfer
  numbers : ∀ t ∈ s.rows, t.HasStoredNumbers
  writable : db.readOnly = false
  unblocked : db.blocked = false

variable {db : Database} {s : MemoryStore} {batch : List Transfer}

/-- A database that may be written commits as its table does, and stays where it is. -/
theorem commit_spec (hw : db.readOnly = false) (hb : db.blocked = false) (batch : List Transfer) :
    (commit batch db).result = (db.table.commit batch).result ∧
      (commit batch db).store.table.rows = (db.table.commit batch).store.rows ∧
      (commit batch db).store.readOnly = false ∧ (commit batch db).store.blocked = false ∧
      (commit batch db).store.place = db.place ∧ (commit batch db).store.log = db.log := by
  cases hr : (db.table.commit batch).result with
  | error e =>
    have hrows := LawfulStore.rows_of_error (s := db.table) hr
    simp only [commit, hw, hr]
    exact ⟨trivial, hrows.symm, trivial, hb, trivial, trivial⟩
  | ok n =>
    cases n with
    | zero =>
      have hrows := LawfulStore.rows_of_ok_zero (s := db.table) hr
      simp only [commit, hw, hr]
      exact ⟨trivial, hrows.symm, trivial, hb, trivial, trivial⟩
    | succ n =>
      simp only [commit, hw, hb, hr, Bool.false_eq_true, if_false]
      exact ⟨trivial, trivial, trivial, trivial, trivial, trivial⟩

/-- Both stores answer a commit alike, and agree afterwards. -/
theorem Agrees.commit (h : Agrees db s) (hbatch : ∀ t ∈ batch, t.HasStoredNumbers) :
    Answer.ofCommit (Database.commit batch db).result = .ofCommit (s.commit batch).result ∧
      Agrees (Database.commit batch db).store (s.commit batch).store := by
  obtain ⟨hresult, hrows, hw, hb, -, -⟩ := commit_spec h.writable h.unblocked batch
  have hmap : enrolAll Cells.key db.table.rows (batch.map Cells.ofTransfer) =
      (enrolAll Transfer.key s.rows batch).map Cells.ofTransfer := by
    rw [h.rows]
    exact enrolAll_map _ _ _ Cells.key_ofTransfer_iff _ _
  -- The table checks more than the amounts, but all of that is granted.
  by_cases hrange : ∀ t ∈ batch, t.amount.IsInRange
  · have hstorable : ∀ t ∈ batch, t.IsStorable := fun t ht => ⟨hbatch t ht, hrange t ht⟩
    obtain ⟨hok, hstore⟩ := Table.commit_eq_ok hstorable db.table
    have hcount := congrArg List.length hmap
    rw [List.length_map, length_enrolAll, length_enrolAll] at hcount
    have hrows' := congrArg List.length h.rows
    rw [List.length_map] at hrows'
    rw [hmap] at hstore
    rw [MemoryStore.commit_eq_ok h.unarmed hrange]
    refine ⟨?_, h.unarmed, ?_, ?_, hw, hb⟩
    · rw [hresult, hok]
      exact congrArg (Answer.ofCommit ∘ Except.ok) (by omega)
    · rw [hrows, hstore]
    · intro t ht
      rcases mem_enrolAll _ ht with ht | ht
      · exact h.numbers t ht
      · exact hbatch t ht
  · have hstorable : ¬∀ t ∈ batch, t.IsStorable := fun hs => hrange fun t ht => (hs t ht).amount
    obtain ⟨_, hrefused⟩ := Table.commit_eq_error hstorable
    obtain ⟨_, hmemory⟩ := MemoryStore.commit_eq_error h.unarmed hrange
    rw [hmemory]
    refine ⟨?_, h.unarmed, ?_, h.numbers, hw, hb⟩
    · rw [hresult, hrefused]
      rfl
    · rw [hrows, hrefused]
      exact h.rows

/-- Both stores list the same transfers. -/
theorem Agrees.recent (h : Agrees db s) (limit : ℕ) :
    db.table.recent limit = .ok (s.recent limit) := by
  obtain ⟨⟨rows⟩, _, _, _, _, _, _⟩ := db
  obtain rfl : rows = s.rows.map Cells.ofTransfer := h.rows
  exact Table.recent_ofTransfer s.rows limit

theorem Agrees.count (h : Agrees db s) : Store.count db = Store.count s := by
  show db.table.rows.length = s.rows.length
  rw [h.rows, List.length_map]

theorem Agrees.isStored (h : Agrees db s) : ∀ r ∈ db.table.rows, r.IsStored := by
  intro r hr
  rw [h.rows] at hr
  obtain ⟨t, ht, rfl⟩ := List.mem_map.1 hr
  exact Cells.isStored_ofTransfer (h.numbers t ht)

/-- What both stores answer to anything but opening again. -/
theorem Agrees.perform (h : Agrees db s) {op : Operation} (hop : op.HasStoredNumbers)
    (hr : op ≠ .reopen) (reopen : Database → Answer × Database) :
    (op.perform reopen db).1 = (op.perform MemoryStore.reopen s).1 ∧
      Agrees (op.perform reopen db).2 (op.perform MemoryStore.reopen s).2 := by
  cases op with
  | commit batch => exact h.commit hop
  | recent limit => exact ⟨congrArg Answer.ofListing (h.recent limit), h⟩
  | count => exact ⟨congrArg Answer.counted h.count, h⟩
  | reopen => exact absurd rfl hr

end Database

/-- The database in its directory goes on serving, and agrees with the store in memory. -/
def Housed.Agrees (l : Location) (p : Place) (s : Housed) (m : MemoryStore) : Prop :=
  s.database.Agrees m ∧ Database.IsServing l p s.database s.directory

section Reopened

variable [FileFormat] [LawfulFileFormat]

/-- A database in a file answers alike, also when it is opened again. -/
theorem Housed.Agrees.perform {l : Location} {p : Place} {s : Housed} {m : MemoryStore}
    (h : s.Agrees l p m) {op : Operation} (hop : op.HasStoredNumbers) :
    (op.perform (Housed.reopen l p) s).1 = (op.perform MemoryStore.reopen m).1 ∧
      Housed.Agrees l p (op.perform (Housed.reopen l p) s).2
        (op.perform MemoryStore.reopen m).2 := by
  obtain ⟨hagrees, hserving⟩ := h
  cases op with
  | commit batch =>
    obtain ⟨hanswer, hnext⟩ := hagrees.commit hop
    obtain ⟨-, -, hw, hb, hplace, hlog⟩ :=
      Database.commit_spec hagrees.writable hagrees.unblocked batch
    refine ⟨hanswer, hnext, hserving.clear, ?_, hw, hb, ?_⟩
    · exact hplace.trans hserving.place
    · exact hlog.trans hserving.log
  | recent limit => exact ⟨congrArg Answer.ofListing (hagrees.recent limit), hagrees, hserving⟩
  | count => exact ⟨congrArg Answer.counted hagrees.count, hagrees, hserving⟩
  | reopen =>
    obtain ⟨again, hread, htable, hserving'⟩ := Database.read_close hserving hagrees.isStored
    simp only [Operation.perform, Housed.reopen, hread]
    refine ⟨rfl, ⟨hagrees.unarmed, ?_, hagrees.numbers, hserving'.writable, hserving'.unblocked⟩,
      hserving'⟩
    rw [htable]
    exact hagrees.rows

/-- **The two stores cannot be told apart.** Starting empty, a database in a file answers any
operations as the store in memory does, wherever it is closed and opened again; so does a database
without a file, which is not opened again. In which format the file is does not matter, as long as
it reads back. The numbers of the transfers are to be stored integers; their amounts and names are
arbitrary. -/
theorem answers_agree {ops : List Operation} (hops : ∀ op ∈ ops, op.HasStoredNumbers) :
    (∀ (l : Location) (p : Place) (d : Directory), Database.IsUnhindered l p d →
      d.lookup p = some (.file []) →
      let opened := Database.read l p d
      ∃ db, opened.result = .ok db ∧
        answers (Housed.reopen l p) ops ⟨db, opened.directory⟩ =
          answers MemoryStore.reopen ops {}) ∧
    (Operation.reopen ∉ ops → ∀ reopen : Database → Answer × Database,
      answers reopen ops {} = answers MemoryStore.reopen ops {}) := by
  constructor
  · intro l p d hd hempty opened
    obtain ⟨db, hread, htable, hserving⟩ := Database.read_empty hd hempty
    refine ⟨db, hread, ?_⟩
    have hstart : Housed.Agrees l p ⟨db, opened.directory⟩ {} := by
      refine ⟨⟨rfl, ?_, ?_, hserving.writable, hserving.unblocked⟩, hserving⟩
      · rw [htable]
        rfl
      · exact fun t ht => absurd ht List.not_mem_nil
    exact answers_eq_of_simulation _ (fun op hop s m h => h.perform (hops op hop)) hstart
  · intro hreopen reopen
    have hstart : Database.Agrees {} {} :=
      ⟨rfl, rfl, fun t ht => absurd ht List.not_mem_nil, rfl, rfl⟩
    refine answers_eq_of_simulation _ (fun op hop db s h => ?_) hstart
    exact h.perform (hops op hop) (fun he => hreopen (he ▸ hop)) reopen

end Reopened

theorem answers_agree_on_sample :
    let p : Place := [Text.Utf8.encode "a.db".toList]
    let l : Location := { path := Text.Utf8.encode "a.db".toList }
    let d := ({} : Directory).put p (.file [])
    let ops : List Operation :=
      [.commit [sampleTransfer 1 5, sampleTransfer 2 (-1)],
        .commit [sampleTransfer 1 5, sampleTransfer 3 0, sampleTransfer 1 6], .reopen, .count,
        .commit [sampleTransfer 3 8, sampleTransfer 4 8]]
    (∀ op ∈ ops, op.HasStoredNumbers) ∧ Database.IsUnhindered l p d ∧
      d.lookup p = some (.file []) ∧
      ∃ db, (Database.read l p d).result = .ok db ∧
        answers (Housed.reopen l p) ops ⟨db, (Database.read l p d).directory⟩ =
          [.refused, .inserted 2, .reopened, .counted 2, .inserted 1] := by
  intro p l d ops
  have hops : ∀ op ∈ ops, op.HasStoredNumbers := by decide +kernel
  have hd : Database.IsUnhindered l p d := by
    refine ⟨rfl, rfl, rfl, rfl, ?_, ?_, ?_⟩ <;> decide +kernel
  have hempty : d.lookup p = some (.file []) := by decide +kernel
  obtain ⟨db, hread, hanswers⟩ := (answers_agree hops).1 l p d hd hempty
  refine ⟨hops, hd, hempty, db, hread, hanswers.trans ?_⟩
  decide +kernel

end TransferLedger
