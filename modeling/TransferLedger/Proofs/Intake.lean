import Mathlib.Tactic
import TransferLedger.Proofs.Division
import TransferLedger.Proofs.LawfulSource
import TransferLedger.Proofs.LawfulStore
import TransferLedger.Proofs.Turn

/-!
# What a run takes in

A run over a lawful source and a lawful store takes transfers from the front of what the source has
left, enrols the rows of those that can be stored and counts them all.

* `Stats.Tallies`: the totals fit the transfers that were taken and the rows that were added;
* `Worker.runFrom_takes`: whatever ends a run, it has taken a prefix, and enrolled the rows of it;
* `Worker.runFrom_exhausts`: when nothing ends a run from outside, it takes everything.
-/

namespace TransferLedger

open LawfulSource LawfulStore

/-! ### Totals -/

/-- The totals of a run that has taken some transfers, while the rows became more. -/
structure Stats.Tallies (s : Stats) (taken : List Transfer) (before after : ℕ) : Prop where
  received : s.received = taken.length
  excluded : s.excluded = taken.countP fun t => ¬t.IsStorable
  committed : before + s.committed = after
  balanced : s.committed + s.duplicates + s.excluded = s.received

theorem Stats.tallies_empty (before : ℕ) : ({} : Stats).Tallies [] before before :=
  ⟨rfl, rfl, rfl, rfl⟩

/-- Screening leaves out what it does not accept, whatever the rule on amounts is. -/
theorem Guard.length_accepted_add (guard : Guard) (batch : List Transfer) :
    (guard.screen batch).accepted.length + (guard.screen batch).excluded.length =
      batch.length := by
  rw [← (guard.isDivision_screen batch).merged.length_eq, List.length_map]

/-- The totals fit when one more batch is counted. -/
theorem Stats.Tallies.count {s : Stats} {taken batch : List Transfer} {before mid n after : ℕ}
    (h : s.Tallies taken before mid) (hn : n ≤ (Guard.numeric.screen batch).accepted.length)
    (hafter : mid + n = after) :
    (s.count batch.length (Guard.numeric.screen batch) n).Tallies (taken ++ batch) before
      after := by
  obtain ⟨hreceived, hexcluded, hcommitted, hbalanced⟩ := h
  have hbatch := Guard.numeric.length_accepted_add batch
  refine ⟨?_, ?_, ?_, ?_⟩
  · show s.received + batch.length = _
    rw [hreceived, List.length_append]
  · show s.excluded + _ = _
    rw [hexcluded, Guard.length_excluded, List.countP_append]
  · show before + (s.committed + n) = after
    omega
  · show s.committed + n + (s.duplicates + (_ - n)) + (s.excluded + _) = s.received + batch.length
    omega

/-- How many batches of a size are needed for some transfers: the quotient, rounded up. -/
def batchCount (size n : ℕ) : ℕ := (n + size - 1) / size

@[simp] theorem batchCount_zero (size : ℕ) : batchCount size 0 = 0 := by
  cases size with
  | zero => rfl
  | succ k => simp [batchCount]

/-- A batch is full, or it is the last one. -/
theorem batchCount_of_pos {size n : ℕ} (hsize : 0 < size) (hn : 0 < n) :
    batchCount size n = batchCount size (n - size) + 1 := by
  unfold batchCount
  -- Behind the last batch there is nothing, and the subtraction is cut off at zero.
  rcases Nat.lt_or_ge size n with h | h
  · rw [show n + size - 1 = n - size + size - 1 + size by omega, Nat.add_div_right _ hsize]
  · rw [show n + size - 1 = n - 1 + size by omega, Nat.add_div_right _ hsize,
      Nat.sub_eq_zero_of_le h, Nat.div_eq_of_lt (by omega), Nat.div_eq_of_lt (by omega)]

namespace Worker

variable {σ τ ρ κ : Type} [Source σ] [LawfulSource σ]
variable [DecidableEq κ] [Store τ] [LawfulStore τ ρ κ]
variable (w : Worker) (hw : w.guard = Guard.numeric)
include hw

omit [LawfulStore τ ρ κ] [DecidableEq κ] in
theorem commitBatch_eq (batch : List Transfer) (s : τ) :
    w.commitBatch batch s = commitScreened batch s := by
  rw [commitBatch, hw]

/-! ### Runs that may be cut short -/

/-- Whatever ends it, a run has taken some transfers from the front of what was left. It has
enrolled their rows and, unless the store has failed it, counted them. -/
theorem runFrom_takes (c : Conditions) (turns : ℕ) {p : Progress σ τ} (hs : IsSound p.source) :
    ∃ taken, taken <+: remaining p.source ∧
      rows (w.runFrom c turns p).progress.store =
        enrolAll (name τ) (rows p.store) (storableRows τ taken) ∧
      ((∀ error, (w.runFrom c turns p).ending ≠ .failed (.store error)) →
        ∀ {passed before}, p.stats.Tallies passed before (rows p.store).length →
          (w.runFrom c turns p).progress.stats.Tallies (passed ++ taken) before
            (rows (w.runFrom c turns p).progress.store).length) := by
  induction turns generalizing p with
  | zero => exact ⟨[], List.nil_prefix, rfl, fun _ _ _ h => by simpa using h⟩
  | succ turns ih =>
    cases w.took_turn c p with
    | rest ending cause store stats =>
      obtain ⟨hp, he⟩ := w.runFrom_succ_of_some c turns ending
      refine ⟨[], List.nil_prefix, ?_, ?_⟩
      · rw [hp, store]
        rfl
      · intro _ passed before h
        rw [hp, store, stats]
        simpa using h
    | refused supply commit ending _ store =>
      obtain ⟨hp, he⟩ := w.runFrom_succ_of_some c turns ending
      rw [w.commitBatch_eq hw] at commit store
      refine ⟨[], List.nil_prefix, ?_, fun h => absurd he (h _)⟩
      rw [hp, store, rows_commitAccepted_error commit]
      rfl
    | @taken batch n supply some_in commit ending source store stats =>
      rw [w.commitBatch_eq hw] at commit store
      obtain ⟨hleft, hsound⟩ := source_spec hs w.batchSize
      rw [← source] at hleft hsound
      obtain rfl := Supply.batch.inj ((supply_eq hs w.batchSize).symm.trans supply)
      obtain ⟨hrows, hlength⟩ := rows_commitScreened_ok commit
      rw [← store] at hrows hlength
      have hcount : ∀ {passed before}, p.stats.Tallies passed before (rows p.store).length →
          (w.turn c p).progress.stats.Tallies (passed ++ (remaining p.source).take w.batchSize)
            before (rows (w.turn c p).progress.store).length := by
        intro passed before h
        rw [stats, hw]
        exact h.count (le_length_accepted commit) hlength
      cases he : (w.turn c p).ending with
      | some e =>
        obtain ⟨h1, -⟩ := w.runFrom_succ_of_some c turns he
        rw [h1]
        exact ⟨_, List.take_prefix _ _, hrows, fun _ _ _ => hcount⟩
      | none =>
        obtain ⟨h1, h2⟩ := w.runFrom_succ_of_none c turns he
        obtain ⟨later, hprefix, hend, htally⟩ := ih hsound
        rw [h1, h2]
        -- What later turns take stands right behind what this one has taken.
        refine ⟨(remaining p.source).take w.batchSize ++ later, ?_, ?_, ?_⟩
        · rw [hleft] at hprefix
          have := (List.prefix_append_right_inj ((remaining p.source).take w.batchSize)).2 hprefix
          rwa [List.take_append_drop] at this
        · rw [hend, hrows, storableRows_append, enrolAll_append]
        · intro hstore passed before h
          rw [← List.append_assoc]
          exact htally hstore (hcount h)

/-! ### Runs that nothing cuts short -/

variable {c : Conditions} (hc : c.IsUndisturbed) {p : Progress σ τ} (hs : IsSound p.source)
include hc hs

omit [LawfulStore τ ρ κ] [DecidableEq κ] hw in
/-- The turn behind the last transfer ends the run. -/
theorem turn_of_nil (h : remaining p.source = []) :
    (w.turn c p).ending = some (.finished .exhausted) ∧
      (w.turn c p).progress.stats = p.stats := by
  have hsupply := supply_eq hs w.batchSize
  rw [h, List.take_nil] at hsupply
  obtain ⟨hending, -, -, hstats⟩ := w.turn_of_exhausted hsupply (hc.isQuietUntil _)
  exact ⟨hending, hstats⟩

/-- Any other turn takes a batch, commits it and goes on. -/
theorem turn_of_ne_nil (hsize : 0 < w.batchSize) (hr : IsReady p.store)
    (h : remaining p.source ≠ []) :
    let batch := (remaining p.source).take w.batchSize
    ∃ n, (w.turn c p).ending = none ∧
      (w.turn c p).progress.source = (Source.pull w.batchSize p.source).source ∧
      (w.turn c p).progress.store = (commitScreened batch p.store).store ∧
      (w.turn c p).progress.stats = p.stats.count batch.length (w.guard.screen batch) n := by
  intro batch
  have hsupply := supply_eq hs w.batchSize
  have hne : batch ≠ [] := fun hnil => h ((List.take_eq_nil_iff.1 hnil).resolve_left hsize.ne')
  obtain ⟨-, n, hn⟩ := isReady_commitScreened batch hr
  rw [← w.commitBatch_eq hw] at hn ⊢
  obtain ⟨hending, hsource, hstore, hstats, -⟩ :=
    w.turn_of_commit hsupply hne hn (hc.isQuietUntil _)
  exact ⟨n, hending, hsource, hstore, hstats⟩

/-- Enough turns take everything, in as few batches as the size allows. -/
theorem runFrom_exhausts (hsize : 0 < w.batchSize) (hr : IsReady p.store) {turns : ℕ}
    (ht : (remaining p.source).length < turns) :
    (w.runFrom c turns p).ending = .finished .exhausted ∧
      (w.runFrom c turns p).progress.stats.received =
        p.stats.received + (remaining p.source).length ∧
      (w.runFrom c turns p).progress.stats.batches =
        p.stats.batches + batchCount w.batchSize (remaining p.source).length := by
  induction turns generalizing p with
  | zero => exact absurd ht (Nat.not_lt_zero _)
  | succ turns ih =>
    by_cases h : remaining p.source = []
    · obtain ⟨he, hstats⟩ := w.turn_of_nil hc hs h
      obtain ⟨h1, h2⟩ := w.runFrom_succ_of_some c turns he
      rw [h1, h2, hstats, h]
      exact ⟨rfl, rfl, by simp⟩
    · obtain ⟨n, he, hsource, hstore, hstats⟩ := w.turn_of_ne_nil hw hc hs hsize hr h
      obtain ⟨h1, h2⟩ := w.runFrom_succ_of_none c turns he
      obtain ⟨hleft, hsound⟩ := source_spec hs w.batchSize
      rw [← hsource] at hleft hsound
      have hready := (isReady_commitScreened ((remaining p.source).take w.batchSize) hr).1
      rw [← hstore] at hready
      have hlength := List.length_pos_iff.2 h
      have htail : (remaining (w.turn c p).progress.source).length =
          (remaining p.source).length - w.batchSize := by
        rw [hleft, List.length_drop]
      obtain ⟨ih1, ih2, ih3⟩ := ih hsound hready (by omega)
      rw [h1, h2]
      refine ⟨ih1, ?_, ?_⟩
      · rw [ih2, htail, hstats]
        show p.stats.received + ((remaining p.source).take w.batchSize).length + _ = _
        rw [List.length_take]
        omega
      · rw [ih3, htail, hstats, batchCount_of_pos hsize hlength]
        show p.stats.batches + 1 + _ = _
        omega

end Worker

/-! ### Whole runs -/

namespace Worker

variable {σ τ ρ κ : Type} [Source σ] [LawfulSource σ]
variable [DecidableEq κ] [Store τ] [LawfulStore τ ρ κ]
variable (w : Worker) (hw : w.guard = Guard.numeric) {source : σ} (hs : IsSound source) (store : τ)
include hw hs

/-- A run over a source, cut short or not, has enrolled what it has taken. -/
theorem runFor_takes (c : Conditions) (turns : ℕ) :
    ∃ taken, taken <+: remaining source ∧
      rows (w.runFor c turns source store).progress.store =
        enrolAll (name τ) (rows store) (storableRows τ taken) ∧
      ((∀ error, (w.runFor c turns source store).ending ≠ .failed (.store error)) →
        (w.runFor c turns source store).progress.stats.Tallies taken (rows store).length
          (rows (w.runFor c turns source store).progress.store).length) := by
  obtain ⟨taken, hprefix, hrows, htally⟩ := w.runFrom_takes hw c turns (p := { source, store }) hs
  exact ⟨taken, hprefix, hrows, fun h => htally h (Stats.tallies_empty _)⟩

/-- A run that nothing cuts short has enrolled everything. -/
theorem runFor_exhausts {c : Conditions} (hc : c.IsUndisturbed) (hsize : 0 < w.batchSize)
    (hr : IsReady store) {turns : ℕ} (ht : (remaining source).length < turns) :
    (w.runFor c turns source store).ending = .finished .exhausted ∧
      rows (w.runFor c turns source store).progress.store =
        enrolAll (name τ) (rows store) (storableRows τ (remaining source)) ∧
      (w.runFor c turns source store).progress.stats.Tallies (remaining source)
        (rows store).length (rows (w.runFor c turns source store).progress.store).length ∧
      (w.runFor c turns source store).progress.stats.batches =
        batchCount w.batchSize (remaining source).length := by
  obtain ⟨he, hreceived, hbatches⟩ :=
    w.runFrom_exhausts hw hc (p := { source, store }) hs hsize hr ht
  change (w.runFor c turns source store).ending = _ at he
  change (w.runFor c turns source store).progress.stats.received = 0 + _ at hreceived
  change (w.runFor c turns source store).progress.stats.batches = 0 + _ at hbatches
  obtain ⟨taken, hprefix, hrows, htally⟩ := w.runFor_takes hw hs store c turns
  have htally := htally fun error => by
    rw [he]
    simp
  -- What was received is as much as there was, so the prefix is the whole.
  obtain rfl := hprefix.eq_of_length (by rw [← htally.received, hreceived, Nat.zero_add])
  exact ⟨he, hrows, htally, by rw [hbatches, Nat.zero_add]⟩

end Worker

end TransferLedger
