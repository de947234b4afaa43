import Mathlib.Tactic
import TransferLedger.Proofs.Intake
import TransferLedger.Proofs.TextLines

/-!
# What a whole run comes to

* `Stats.ofWhole`: the totals of a run that takes everything, but for the number of batches;
* `Worker.run_adds_newcomers`: a run that nothing cuts short adds the first transfer of each new
  name among those that can be stored;
* `Worker.run_over_text`: the same for the lines of a text and the two stores.
-/

namespace TransferLedger

open LawfulSource LawfulStore

/-- The totals of a run that takes everything and adds some of it, except for the number of
batches. -/
def Stats.ofWhole (taken added : List Transfer) : Stats where
  received := taken.length
  committed := added.length
  excluded := taken.countP fun t => ¬t.IsStorable
  duplicates := taken.length - (taken.countP fun t => ¬t.IsStorable) - added.length

/-- The transfers that a store does not hold yet, the first of each name, among those of some
transfers that can be stored. -/
def additions (held handed : List Transfer) : List Transfer :=
  newcomers Transfer.key (held.map Transfer.key) (handed.filter fun t => t.IsStorable)

/-- The totals are determined by what was taken and by how many rows were added. -/
theorem Stats.Tallies.eq_ofWhole {s : Stats} {taken added : List Transfer} {before : ℕ}
    (h : s.Tallies taken before (before + added.length)) :
    s = { Stats.ofWhole taken added with batches := s.batches } := by
  obtain ⟨hreceived, hexcluded, hcommitted, hbalanced⟩ := h
  obtain ⟨batches, received, committed, excluded, duplicates⟩ := s
  dsimp only at hreceived hexcluded hcommitted hbalanced
  subst hreceived hexcluded
  have hadded : committed = added.length := by omega
  subst hadded
  have hduplicates : duplicates =
      taken.length - (taken.countP fun t => ¬t.IsStorable) - added.length := by omega
  rw [hduplicates]
  rfl

/-- A run that nothing cuts short adds what is new, in the order in which it is handed out, and
counts everything. -/
theorem Worker.run_adds_newcomers {σ τ ρ κ : Type} [Source σ] [LawfulSource σ] [DecidableEq κ]
    [Store τ] [LawfulStore τ ρ κ] (w : Worker) (hw : w.guard = Guard.numeric)
    (hsize : 0 < w.batchSize) {c : Conditions} (hc : c.IsUndisturbed) {source : σ}
    (hs : IsSound source) (store : τ) (hr : IsReady store) {held : List Transfer}
    (hheld : rows store = held.map (row τ)) :
    (w.run c source store).ending = .finished .exhausted ∧
      rows (w.run c source store).progress.store =
        (held ++ additions held (remaining source)).map (row τ) ∧
      (w.run c source store).progress.stats =
        { Stats.ofWhole (remaining source) (additions held (remaining source)) with
          batches := batchCount w.batchSize (remaining source).length } := by
  obtain ⟨hending, hrows, htally, hbatches⟩ :=
    w.runFor_exhausts hw hs store hc hsize hr (length_lt_bound source)
  rw [← run] at hending hrows htally hbatches
  have hadded : rows (w.run c source store).progress.store =
      (held ++ additions held (remaining source)).map (row τ) := by
    rw [hrows, hheld, storableRows, enrolAll_map_row, enrolAll_eq, additions]
  refine ⟨hending, hadded, ?_⟩
  rw [hadded, hheld, List.length_map, List.length_map, List.length_append] at htally
  rw [htally.eq_ofWhole, hbatches]

/-- **A whole run.** Over the lines of some bytes in UTF-8, and with no shutdown, the worker comes
to the end of its source. The rows are then those from before and behind them, in the order of the
lines, the first transfer of each new name among those that can be stored; and the totals count
them. Only the number of batches depends on the size of a batch. -/
theorem Worker.run_over_text {bytes : List UInt8} (htext : IsText bytes) {c : Conditions}
    (hc : c.IsUndisturbed) :
    let handed := Lines.transfers bytes
    (∀ (held : List Transfer) (batchSize pollInterval : ℕ), 0 < batchSize →
      let run := ({ batchSize, pollInterval } : Worker).run c (Lines.ofBytes bytes)
        ({ rows := held } : MemoryStore)
      run.ending = .finished .exhausted ∧
        run.progress.store.rows = held ++ additions held handed ∧
        run.progress.stats = { Stats.ofWhole handed (additions held handed) with
          batches := batchCount batchSize handed.length }) ∧
    ∀ table, Reached ({} : Table) table → ∃ held : List Transfer,
      table.rows = held.map Cells.ofTransfer ∧
      ∀ batchSize pollInterval : ℕ, 0 < batchSize →
        let run := ({ batchSize, pollInterval } : Worker).run c (Lines.ofBytes bytes) table
        run.ending = .finished .exhausted ∧
          run.progress.store.rows = (held ++ additions held handed).map Cells.ofTransfer ∧
          run.progress.stats = { Stats.ofWhole handed (additions held handed) with
            batches := batchCount batchSize handed.length } := by
  intro handed
  have hsound := Lines.isSound_ofBytes htext
  constructor
  · intro held batchSize pollInterval hsize
    have hheld : rows ({ rows := held } : MemoryStore) = held.map id := (List.map_id held).symm
    obtain ⟨hending, hrows, hstats⟩ :=
      run_adds_newcomers { batchSize, pollInterval } rfl hsize hc hsound
        ({ rows := held } : MemoryStore) rfl hheld
    exact ⟨hending, hrows.trans (List.map_id _), hstats⟩
  · intro table hreached
    have hstart : rows ({} : Table) = [].map (row Table) := rfl
    obtain ⟨held, hheld⟩ := exists_held_of_reached hstart hreached
    refine ⟨held, hheld, fun batchSize pollInterval hsize => ?_⟩
    exact run_adds_newcomers { batchSize, pollInterval } rfl hsize hc hsound table trivial hheld

/-- Five lines with transfers, one of them out of range and one of a name that is used before, a
blank line and one that is malformed. -/
def sampleText : List Char :=
  [(sampleTransfer 1 5).toJson, (sampleTransfer 2 (-1)).toJson, [], (sampleTransfer 1 6).toJson,
    "none".toList, (sampleTransfer 3 0).toJson, (sampleTransfer 4 8).toJson].flatMap (· ++ ['\n'])

theorem Worker.run_over_sampleText :
    IsText (Text.Utf8.encode sampleText) ∧ ({} : Conditions).IsUndisturbed ∧ 0 < 2 ∧
      let run := ({ batchSize := 2 } : Worker).run {} (Lines.ofBytes (Text.Utf8.encode sampleText))
        ({ rows := [sampleTransfer 4 9] } : MemoryStore)
      run.ending = .finished .exhausted ∧
        run.progress.store.rows =
          [sampleTransfer 4 9, sampleTransfer 1 5, sampleTransfer 3 0] ∧
        run.progress.stats =
          { batches := 3, received := 5, committed := 2, excluded := 1, duplicates := 2 } := by
  have htext := isText_encode sampleText
  have hc : ({} : Conditions).IsUndisturbed := ⟨rfl, rfl⟩
  have hsize : 0 < 2 := by decide
  have hhanded : Lines.transfers (Text.Utf8.encode sampleText) =
      [sampleTransfer 1 5, sampleTransfer 2 (-1), sampleTransfer 1 6, sampleTransfer 3 0,
        sampleTransfer 4 8] := by decide +kernel
  obtain ⟨hending, hrows, hstats⟩ :=
    (Worker.run_over_text htext hc).1 [sampleTransfer 4 9] 2 0 hsize
  rw [hhanded] at hrows hstats
  refine ⟨htext, hc, hsize, hending, hrows.trans ?_, hstats.trans ?_⟩
  · decide +kernel
  · decide +kernel

end TransferLedger
