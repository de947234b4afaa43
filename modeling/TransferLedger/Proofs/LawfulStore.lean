import Mathlib.Tactic
import TransferLedger.Proofs.Storable
import TransferLedger.Worker

/-!
# The laws of a store

A store has rows, and each transfer is one row, named as the transfer is. A commit that succeeds
enrols the rows of its batch and tells how many were new; one that fails leaves the rows as they
were. When nothing is in the way, a batch of transfers that can be stored is never refused.

* `LawfulStore`: these laws;
* `LawfulStore` for `MemoryStore` and for `Table`: the two stores obey them;
* `LawfulStore.rows_commitScreened_ok`, `LawfulStore.isReady_commitScreened`: what follows for a
  screened batch, whose commit is left out when nothing in it is accepted;
* `Reached`: the stores that commits lead to, which hold the rows of some transfers.
-/

namespace TransferLedger

/-- A store that keeps the first row of each name. -/
class LawfulStore (τ : Type) (ρ κ : outParam Type) [Store τ] [DecidableEq κ] where
  /-- The rows in the order in which they were added. -/
  rows : τ → List ρ
  /-- The row of a transfer. -/
  row : Transfer → ρ
  /-- What names a row. -/
  name : ρ → κ
  name_row_iff (a b : Transfer) : name (row a) = name (row b) ↔ a.key = b.key
  /-- Nothing is in the way of a commit. -/
  IsReady : τ → Prop
  rows_of_error {s : τ} {batch : List Transfer} {e : StoreError}
    (h : (Store.commit batch s).result = .error e) : rows (Store.commit batch s).store = rows s
  rows_of_ok {s : τ} {batch : List Transfer} {n : ℕ} (h : (Store.commit batch s).result = .ok n) :
    rows (Store.commit batch s).store = enrolAll name (rows s) (batch.map row) ∧
      (rows s).length + n = (rows (Store.commit batch s).store).length
  isReady_commit {s : τ} (hs : IsReady s) (batch : List Transfer) :
    IsReady (Store.commit batch s).store
  exists_ok {s : τ} {batch : List Transfer} (hs : IsReady s) (hb : ∀ t ∈ batch, t.IsStorable) :
    ∃ n, (Store.commit batch s).result = .ok n

/-! ### The store in memory -/

namespace MemoryStore

variable {s : MemoryStore} {batch : List Transfer}

/-- A batch within the range of the amount column is added. -/
theorem commit_eq_ok (hs : s.armed = none) (hb : ∀ t ∈ batch, t.amount.IsInRange) :
    commit batch s =
      { result := .ok (newcomers Transfer.key (s.rows.map Transfer.key) batch).length
        store := { s with rows := enrolAll Transfer.key s.rows batch } } := by
  have hfind : batch.find? isOutside = none :=
    List.find?_eq_none.2 fun t ht => by simpa [isOutside_iff] using hb t ht
  simp only [commit, hs, hfind, foldl_insert, Growth.enrolAll, Nat.zero_add]

/-- Any other batch is refused and leaves the store as it was. -/
theorem commit_eq_error (hs : s.armed = none) (hb : ¬∀ t ∈ batch, t.amount.IsInRange) :
    ∃ why, commit batch s = { result := .error (.constraintViolation why), store := s } := by
  have hfind : batch.find? isOutside ≠ none := by
    rw [Ne, List.find?_eq_none]
    simpa [isOutside_iff] using hb
  obtain ⟨t, ht⟩ := Option.ne_none_iff_exists'.1 hfind
  exact ⟨.amountRange t.amount, by rw [commit, hs, ht]⟩

end MemoryStore

instance : LawfulStore MemoryStore Transfer Transfer.Key where
  rows := MemoryStore.rows
  row := id
  name := Transfer.key
  name_row_iff _ _ := Iff.rfl
  IsReady s := s.armed = none
  rows_of_error {s batch e} h := by
    change (MemoryStore.commit batch s).result = _ at h
    change (MemoryStore.commit batch s).store.rows = _
    cases ha : s.armed with
    | some error => rw [MemoryStore.commit, ha]
    | none =>
      by_cases hb : ∀ t ∈ batch, t.amount.IsInRange
      · rw [MemoryStore.commit_eq_ok ha hb] at h
        cases h
      · obtain ⟨why, hc⟩ := MemoryStore.commit_eq_error ha hb
        rw [hc]
  rows_of_ok {s batch n} h := by
    change (MemoryStore.commit batch s).result = _ at h
    change (MemoryStore.commit batch s).store.rows = _ ∧
      _ = (MemoryStore.commit batch s).store.rows.length
    cases ha : s.armed with
    | some error =>
      rw [MemoryStore.commit, ha] at h
      cases h
    | none =>
      by_cases hb : ∀ t ∈ batch, t.amount.IsInRange
      · rw [MemoryStore.commit_eq_ok ha hb] at h ⊢
        obtain rfl := Except.ok.inj h
        exact ⟨by rw [List.map_id], (length_enrolAll Transfer.key s.rows batch).symm⟩
      · obtain ⟨why, hc⟩ := MemoryStore.commit_eq_error ha hb
        rw [hc] at h
        cases h
  isReady_commit {s} hs batch := by
    change (MemoryStore.commit batch s).store.armed = none
    by_cases hb : ∀ t ∈ batch, t.amount.IsInRange
    · rw [MemoryStore.commit_eq_ok hs hb]
      exact hs
    · obtain ⟨why, hc⟩ := MemoryStore.commit_eq_error hs hb
      rw [hc]
      exact hs
  exists_ok {s batch} hs hb := by
    change ∃ n, (MemoryStore.commit batch s).result = .ok n
    rw [MemoryStore.commit_eq_ok hs fun t ht => (hb t ht).amount]
    exact ⟨_, rfl⟩

/-! ### The table -/

/-- Texts and integers name rows as bytes and numbers name transfers. -/
theorem Cells.key_ofTransfer_iff (a b : Transfer) :
    (ofTransfer a).key = (ofTransfer b).key ↔ a.key = b.key := by
  simp only [key, ofTransfer, Transfer.key, Prod.mk.injEq, Cell.text.injEq, Cell.integer.injEq]
  refine and_congr ⟨Hex.encode_injective, fun h => by rw [h]⟩ ?_
  rw [Int.ofNat_inj, UInt64.toNat_inj]

namespace Table

/-- A batch that can be stored is added, and what is new is counted row by row. -/
theorem insertAll_of_isStorable {batch : List Transfer} (hb : ∀ t ∈ batch, t.IsStorable)
    (g : Growth Cells) :
    insertAll g batch = .ok (g.enrolAll Cells.key (batch.map Cells.ofTransfer)) := by
  induction batch generalizing g with
  | nil => rfl
  | cons t ts ih =>
    obtain ⟨ht, hts⟩ := List.forall_mem_cons.1 hb
    rw [insertAll, insert_of_isStorable ht, List.map_cons, Growth.enrolAll_cons, holds]
    simp only [beq_eq_decide]
    split
    · exact ih hts _
    · exact ih hts _

/-- Any other batch is refused, at its first transfer that cannot be stored. -/
theorem exists_insertAll_error {batch : List Transfer} (hb : ¬∀ t ∈ batch, t.IsStorable) :
    ∃ why, ∀ g, insertAll g batch = .error why := by
  induction batch with
  | nil => simp at hb
  | cons t ts ih =>
    by_cases ht : t.IsStorable
    · obtain ⟨why, hw⟩ := ih fun h => hb (List.forall_mem_cons.2 ⟨ht, h⟩)
      exact ⟨why, fun g => by rw [insertAll, insert_of_isStorable ht]; exact hw _⟩
    · obtain ⟨why, hw⟩ := exists_insert_error ht
      exact ⟨why, fun g => by rw [insertAll, hw]⟩

variable {batch : List Transfer}

/-- What a commit of storable transfers does. -/
theorem commit_eq_ok (hb : ∀ t ∈ batch, t.IsStorable) (table : Table) :
    let arrivals := batch.map Cells.ofTransfer
    (commit batch table).result =
        .ok (newcomers Cells.key (table.rows.map Cells.key) arrivals).length ∧
      (commit batch table).store = ⟨enrolAll Cells.key table.rows arrivals⟩ := by
  cases batch with
  | nil => exact ⟨rfl, rfl⟩
  | cons t ts =>
    rw [commit, insertAll_of_isStorable hb]
    exact ⟨congrArg Except.ok (Nat.zero_add _), rfl⟩

/-- Any other batch is refused and leaves the table as it was. -/
theorem commit_eq_error (hb : ¬∀ t ∈ batch, t.IsStorable) :
    ∃ why, ∀ table, commit batch table =
      { result := .error (.constraintViolation why), store := table } := by
  obtain ⟨why, hw⟩ := exists_insertAll_error hb
  refine ⟨why, fun table => ?_⟩
  have hne : batch.isEmpty = false := by
    cases batch with
    | nil => simp at hb
    | cons => rfl
  simp only [commit, hne, hw, Bool.false_eq_true, if_false]

end Table

instance : LawfulStore Table Cells (Cell × Cell) where
  rows := Table.rows
  row := Cells.ofTransfer
  name := Cells.key
  name_row_iff := Cells.key_ofTransfer_iff
  IsReady _ := True
  rows_of_error {s batch e} h := by
    change (Table.commit batch s).result = _ at h
    change (Table.commit batch s).store.rows = _
    by_cases hb : ∀ t ∈ batch, t.IsStorable
    · rw [(Table.commit_eq_ok hb s).1] at h
      cases h
    · obtain ⟨why, hc⟩ := Table.commit_eq_error hb
      rw [hc]
  rows_of_ok {s batch n} h := by
    change (Table.commit batch s).result = _ at h
    change (Table.commit batch s).store.rows = _ ∧
      _ = (Table.commit batch s).store.rows.length
    by_cases hb : ∀ t ∈ batch, t.IsStorable
    · obtain ⟨hr, hs⟩ := Table.commit_eq_ok hb s
      rw [hr] at h
      obtain rfl := Except.ok.inj h
      rw [hs]
      exact ⟨rfl, (length_enrolAll Cells.key s.rows (batch.map Cells.ofTransfer)).symm⟩
    · obtain ⟨why, hc⟩ := Table.commit_eq_error hb
      rw [hc] at h
      cases h
  isReady_commit _ _ := trivial
  exists_ok {s batch} _ hb := ⟨_, (Table.commit_eq_ok hb s).1⟩

/-! ### Screened batches -/

namespace LawfulStore

variable {τ ρ κ : Type} [DecidableEq κ] [Store τ] [LawfulStore τ ρ κ]
variable {s : τ} {batch : List Transfer}

/-- The rows of those among some transfers that can be stored. -/
def storableRows (τ : Type) {ρ κ : Type} [DecidableEq κ] [Store τ] [LawfulStore τ ρ κ]
    (ts : List Transfer) : List ρ :=
  (ts.filter fun t => t.IsStorable).map (row τ)

@[simp] theorem storableRows_nil : storableRows τ [] = [] := rfl

theorem storableRows_append (xs ys : List Transfer) :
    storableRows τ (xs ++ ys) = storableRows τ xs ++ storableRows τ ys := by
  simp [storableRows]

theorem prefix_storableRows {xs ys : List Transfer} (h : xs <+: ys) :
    storableRows τ xs <+: storableRows τ ys := by
  obtain ⟨zs, rfl⟩ := h
  rw [storableRows_append]
  exact List.prefix_append _ _

/-- Commits what screening accepts of a batch. -/
abbrev commitScreened (batch : List Transfer) (s : τ) : Commit τ :=
  Worker.commitAccepted (Guard.numeric.screen batch) s

/-- A commit that adds no rows leaves them as they were. -/
theorem rows_of_ok_zero (h : (Store.commit batch s).result = .ok 0) :
    rows (Store.commit batch s).store = rows s := by
  obtain ⟨hrows, hlength⟩ := rows_of_ok h
  have hle := prefix_enrolAll (name τ) (rows s) (batch.map (row τ))
  rw [← hrows] at hle
  exact (hle.eq_of_length hlength).symm

/-- A batch that is refused leaves the rows as they were, whatever it was screened by. -/
theorem rows_commitAccepted_error {screened : Screened} {e : StoreError}
    (h : (Worker.commitAccepted screened s).result = .error e) :
    rows (Worker.commitAccepted screened s).store = rows s := by
  unfold Worker.commitAccepted at h ⊢
  split at h
  · cases h
  · rename_i hne
    rw [if_neg hne]
    exact rows_of_error h

/-- What is accepted is enrolled, and the new rows are counted. -/
theorem rows_commitAccepted_ok {screened : Screened} {n : ℕ}
    (h : (Worker.commitAccepted screened s).result = .ok n) :
    rows (Worker.commitAccepted screened s).store =
        enrolAll (name τ) (rows s) (screened.accepted.map (row τ)) ∧
      (rows s).length + n = (rows (Worker.commitAccepted screened s).store).length := by
  unfold Worker.commitAccepted at h ⊢
  split at h
  · -- Nothing is accepted, so there is no row to enrol, and the store is not asked.
    rename_i hnil
    obtain rfl := Except.ok.inj h
    rw [if_pos hnil, List.isEmpty_iff.1 hnil]
    exact ⟨rfl, rfl⟩
  · rename_i hne
    rw [if_neg hne]
    exact rows_of_ok h

/-- No more rows are added than transfers are accepted. -/
theorem le_length_accepted {τ ρ κ : Type} [DecidableEq κ] [Store τ] [LawfulStore τ ρ κ] {s : τ}
    {screened : Screened} {n : ℕ} (h : (Worker.commitAccepted screened s).result = .ok n) :
    n ≤ screened.accepted.length := by
  obtain ⟨hrows, hlength⟩ := rows_commitAccepted_ok h
  have hle := length_enrolAll_le (name τ) (rows s) (screened.accepted.map (row τ))
  rw [← hrows, List.length_map] at hle
  omega

theorem rows_commitScreened_ok {n : ℕ} (h : (commitScreened batch s).result = .ok n) :
    rows (commitScreened batch s).store = enrolAll (name τ) (rows s) (storableRows τ batch) ∧
      (rows s).length + n = (rows (commitScreened batch s).store).length := by
  rw [storableRows, ← Guard.accepted_eq_filter]
  exact rows_commitAccepted_ok h

/-- What screening accepts is never refused when nothing is in the way. -/
theorem isReady_commitScreened (batch : List Transfer) (hs : IsReady s) :
    IsReady (commitScreened batch s).store ∧ ∃ n, (commitScreened batch s).result = .ok n := by
  unfold commitScreened Worker.commitAccepted
  split
  · exact ⟨hs, 0, rfl⟩
  · exact ⟨isReady_commit hs _, exists_ok hs fun t ht => Guard.isStorable_of_mem_accepted ht⟩

end LawfulStore

/-! ### Stores that commits lead to -/

/-- A store that some commits lead to, refused ones included. -/
inductive Reached {τ : Type} [Store τ] (start : τ) : τ → Prop
  | start : Reached start start
  | commit {s : τ} (batch : List Transfer) (h : Reached start s) :
      Reached start (Store.commit batch s).store

namespace LawfulStore

variable {τ ρ κ : Type} [DecidableEq κ] [Store τ] [LawfulStore τ ρ κ]

/-- Enrolling the rows of transfers is enrolling the transfers. -/
theorem enrolAll_map_row (held ts : List Transfer) :
    enrolAll (name τ) (held.map (row τ)) (ts.map (row τ)) =
      (enrolAll Transfer.key held ts).map (row τ) :=
  enrolAll_map Transfer.key (name τ) (row τ) name_row_iff held ts

/-- A store keeps holding rows of transfers. -/
theorem exists_held_of_reached {start s : τ} {first : List Transfer}
    (hstart : rows start = first.map (row τ)) (h : Reached start s) :
    ∃ held : List Transfer, rows s = held.map (row τ) := by
  induction h with
  | start => exact ⟨first, hstart⟩
  | @commit s batch _ ih =>
    obtain ⟨held, hheld⟩ := ih
    cases hr : (Store.commit batch s).result with
    | error e => exact ⟨held, (rows_of_error hr).trans hheld⟩
    | ok n =>
      refine ⟨enrolAll Transfer.key held batch, ?_⟩
      rw [(rows_of_ok hr).1, hheld, enrolAll_map_row]

end LawfulStore

end TransferLedger
