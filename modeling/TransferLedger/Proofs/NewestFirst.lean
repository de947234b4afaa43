import Mathlib.Tactic
import TransferLedger.Proofs.Listing

/-!
# The newest transfers are listed first

Whatever has happened to a store, a listing gives the newest of the transfers that it keeps, each of
them as it was first committed.

* `Change.taken`: the transfers of all batches that were committed with success;
* `IsNewer`: a transfer has the larger block number or, in the same block, the larger log index;
* `LawfulStore.ListsRows`: a store lists its rows by a stable sort, and counts them;
* `LawfulStore.IsHarmless.rows_applyAll`: the rows are those of the first transfers of each name;
* `LawfulStore.ShowsNewest`: what a listing gives for every limit;
* `stores_show_newest`: the store in memory and databases do.
-/

namespace TransferLedger

open LawfulStore

/-- The transfers of the batches that are committed with success, in their order. -/
def Change.taken {τ δ : Type} [Store τ] (other : δ → τ → τ) : List (Change δ) → τ → List Transfer
  | [], _ => []
  | .commit batch :: changes, s =>
    (match (Store.commit batch s).result with
      | .ok _ => batch
      | .error _ => []) ++ taken other changes (Store.commit batch s).store
  | .other event :: changes, s => taken other changes (other event s)

/-- A transfer is newer than another: it has the larger block number or, in the same block, the
larger log index. -/
def IsNewer (a b : Transfer) : Prop :=
  b.blockNumber < a.blockNumber ∨ b.blockNumber = a.blockNumber ∧ b.logIndex < a.logIndex

/-- What is listed before a transfer is not older. -/
theorem ListsBefore.not_isNewer {committed : List Transfer} {a b : Transfer}
    (h : ListsBefore committed a b) : ¬IsNewer b a := by
  simp only [ListsBefore, IsNewer, UInt64.lt_iff_toNat_lt, ← UInt64.toNat_inj] at h ⊢
  omega

namespace LawfulStore

variable {τ ρ κ δ : Type} [DecidableEq κ] [Store τ] [LawfulStore τ ρ κ]

/-- A store sorts the transfers of its rows to list them, and counts its rows. -/
structure ListsRows (τ : Type) {ρ κ : Type} [DecidableEq κ] [Store τ] [LawfulStore τ ρ κ] :
    Prop where
  recent : ∀ (s : τ) (held : List Transfer), rows s = held.map (row τ) → ∀ limit,
    Store.recent limit s = .ok ((held.mergeSort newerOrSame).take limit)
  count : ∀ s : τ, Store.count s = (rows s).length

/-- Whatever happens to a store from a start on, it keeps the first transfer of each name among
those committed with success, in their order. A listing of up to a number of transfers gives that
many of these if there are as many, from the front of the order in which they are listed; a limit
that is large enough gives each of them once; and nothing that is left out is newer than something
given. -/
def ShowsNewest (other : δ → τ → τ) (start : τ) : Prop :=
  ∀ changes : List (Change δ),
    let s := Change.applyAll other changes start
    let taken := Change.taken other changes start
    let stored := newcomers Transfer.key [] taken
    rows s = stored.map (row τ) ∧ Store.count s = stored.length ∧
      (∀ t, t ∈ stored ↔ taken.find? (fun u => u.key = t.key) = some t) ∧
      ∃ whole, IsListing stored whole ∧ ∀ limit,
        let listed := whole.take limit
        Store.recent limit s = .ok listed ∧ listed.length = min limit stored.length ∧
          (stored.length ≤ limit → listed.Perm stored ∧ listed.Nodup) ∧
          ∀ a ∈ listed, ∀ b ∈ stored, b ∉ listed → ¬IsNewer b a

variable {P : Transfer → Prop} {s : τ} {other : δ → τ → τ} {Inv : τ → Prop}

/-- The rows are those of the first transfers of each name. -/
theorem IsHarmless.rows_applyAll (h : IsHarmless other P Inv) (hs : Inv s) (hl : IsLedger P s)
    {held : List Transfer} (hheld : rows s = held.map (row τ)) (changes : List (Change δ)) :
    rows (Change.applyAll other changes s) =
      (enrolAll Transfer.key held (Change.taken other changes s)).map (row τ) := by
  induction changes generalizing s held with
  | nil => exact hheld
  | cons change changes ih =>
    obtain ⟨hs', hl', -⟩ := h.apply_spec hs hl change
    cases change with
    | other event =>
      exact ih hs' hl' ((h.spares event s hs hl).1.trans hheld)
    | commit batch =>
      have hstep : rows (Store.commit batch s).store = (enrolAll Transfer.key held
          (match (Store.commit batch s).result with
            | .ok _ => batch
            | .error _ => [])).map (row τ) := by
        cases hr : (Store.commit batch s).result with
        | error e => exact (rows_of_error hr).trans hheld
        | ok n => rw [(rows_of_ok hr).1, hheld, enrolAll_map_row]
      rw [Change.taken, enrolAll_append]
      exact ih hs' hl' hstep

/-- A store that starts empty shows the newest transfers. -/
theorem IsHarmless.showsNewest (h : IsHarmless other P Inv) (hlists : ListsRows τ) {start : τ}
    (hstart : Inv start) (hempty : rows start = []) : ShowsNewest other start := by
  intro changes s taken stored
  have hledger : IsLedger P start := ⟨[], hempty, List.nodup_nil, by simp⟩
  have hrows : rows s = stored.map (row τ) := by
    have hheld : rows start = ([] : List Transfer).map (row τ) := hempty
    rw [h.rows_applyAll hstart hledger hheld, enrolAll_eq]
    rfl
  have hnodup : stored.Nodup := (nodup_newcomers Transfer.key [] taken).of_map
  have hlisting := isListing_mergeSort hnodup
  refine ⟨hrows, ?_, fun t => ?_, stored.mergeSort newerOrSame, hlisting, fun limit => ?_⟩
  · rw [hlists.count, hrows, List.length_map]
  · simp [stored, mem_newcomers_iff]
  · intro listed
    refine ⟨hlists.recent s stored hrows limit, ?_, fun hle => ?_, fun a ha b hb hnot => ?_⟩
    · rw [List.length_take, hlisting.perm.length_eq]
    · have hall : listed = stored.mergeSort newerOrSame :=
        List.take_of_length_le (hlisting.perm.length_eq.le.trans hle)
      rw [hall]
      exact ⟨hlisting.perm, hlisting.perm.nodup_iff.2 hnodup⟩
    · -- What is left out stands behind everything that is given.
      have horder := hlisting.order
      rw [← List.take_append_drop limit (stored.mergeSort newerOrSame), List.pairwise_append]
        at horder
      have hmem := hlisting.perm.mem_iff.2 hb
      rw [← List.take_append_drop limit (stored.mergeSort newerOrSame), List.mem_append] at hmem
      exact (horder.2.2 a ha b (hmem.resolve_left hnot)).not_isNewer

end LawfulStore

/-! ### What each store lists -/

theorem MemoryStore.listsRows : ListsRows MemoryStore where
  recent s held hrows limit := by
    have hheld : s.rows = held := hrows.trans (List.map_id held)
    show Except.ok (recent limit s) = _
    rw [recent, hheld]
  count _ := rfl

theorem Database.listsRows : ListsRows Database where
  recent db held hrows limit := by
    have htable : db.table = ⟨held.map Cells.ofTransfer⟩ := congrArg Table.mk hrows
    show db.table.recent limit = _
    rw [htable]
    exact Table.recent_ofTransfer held limit
  count _ := rfl

theorem Housed.listsRows : ListsRows Housed where
  recent s := Database.listsRows.recent s.database
  count _ := rfl

/-- **The newest transfers are listed first, whole and in order.** From an empty store on, whatever
is committed, with success or not, a listing gives the first transfers of the order in which the
stored ones are listed, each as it was first committed under its name. In memory failures may be
armed at any time, and a database in a file of any lawful format may be closed and opened again. A
limit may be cut down to the largest stored integer, which no table outgrows. -/
theorem stores_show_newest [FileFormat] [LawfulFileFormat] :
    ShowsNewest (fun error (s : MemoryStore) => s.failNext error) {} ∧
      (∀ (l : Location) (p : Place) (d : Directory), Database.IsUnhindered l p d →
        d.lookup p = some (.file []) →
        let opened := Database.read l p d
        ∃ db, opened.result = .ok db ∧
          ShowsNewest (fun (_ : Unit) s => (Housed.reopen l p s).2) ⟨db, opened.directory⟩) ∧
      ShowsNewest (fun (event : Empty) (_ : Database) => event.elim) {} ∧
      ∀ (db : Database) (limit : ℕ), Store.count db ≤ storedMax →
        Store.recent (min limit storedMax) db = Store.recent limit db := by
  refine ⟨?_, ?_, ?_, fun db limit hcount => Table.recent_min_storedMax hcount limit⟩
  · exact MemoryStore.isHarmless.showsNewest MemoryStore.listsRows trivial rfl
  · intro l p d hd hempty opened
    obtain ⟨db, hread, htable, hserving⟩ := Database.read_empty hd hempty
    refine ⟨db, hread, (Housed.isHarmless l p).showsNewest Housed.listsRows hserving ?_⟩
    show db.table.rows = []
    rw [htable]
  · exact Database.isHarmless.showsNewest Database.listsRows trivial rfl

theorem stores_show_newest_on_sample :
    let p : Place := [Text.Utf8.encode "a.db".toList]
    let l : Location := { path := Text.Utf8.encode "a.db".toList }
    let d := ({} : Directory).put p (.file [])
    let other : Unit → Housed → Housed := fun _ s => (Housed.reopen l p s).2
    let twin := { sampleTransfer 3 8 with txHash := ⟨List.replicate 32 0, rfl⟩ }
    let changes := [.commit [sampleTransfer 1 5, sampleTransfer 2 (-1)],
      .commit [sampleTransfer 1 5, sampleTransfer 3 6], .other (),
      .commit [sampleTransfer 1 9, twin]]
    Database.IsUnhindered l p d ∧ d.lookup p = some (.file []) ∧
      ∃ db, (Database.read l p d).result = .ok db ∧
        let s := Change.applyAll other changes ⟨db, (Database.read l p d).directory⟩
        ∃ whole, IsListing [sampleTransfer 1 5, sampleTransfer 3 6, twin] whole ∧
          ∀ limit, Store.recent limit s = .ok (whole.take limit) := by
  intro p l d other twin changes
  have hd : Database.IsUnhindered l p d := by
    refine ⟨rfl, rfl, rfl, rfl, ?_, ?_, ?_⟩ <;> decide +kernel
  have hempty : d.lookup p = some (.file []) := by decide +kernel
  have htaken : (Database.read l p d).result.toOption.map (fun db => newcomers Transfer.key []
      (Change.taken other changes ⟨db, (Database.read l p d).directory⟩)) =
        some [sampleTransfer 1 5, sampleTransfer 3 6, twin] := by decide +kernel
  obtain ⟨db, hread, hshows⟩ := stores_show_newest.2.1 l p d hd hempty
  rw [hread] at htaken
  obtain ⟨-, -, -, whole, hwhole, hrecent⟩ := hshows changes
  exact ⟨hd, hempty, db, hread, whole, Option.some.inj htaken ▸ hwhole,
    fun limit => (hrecent limit).1⟩

end TransferLedger
