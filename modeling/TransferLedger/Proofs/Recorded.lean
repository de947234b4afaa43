import Mathlib.Tactic
import TransferLedger.Proofs.LawfulStore
import TransferLedger.Proofs.Views

/-!
# The commits of a run

A store can be made to keep the result of every commit. A run does not notice: without the results
it is the run over the store itself, so the results are those of the commits that the run issues.

* `Recorded`: a store with the results of its commits;
* `Worker.runFor_erase`: a run over it, without the results;
* `Guard.accepted_iff_and_commits_succeed`: screening lets through exactly what the table takes,
  so every commit of every run succeeds.
-/

namespace TransferLedger

/-- A store with the results of its commits, the first one in front. -/
structure Recorded (τ : Type) where
  store : τ
  results : List (Except StoreError ℕ) := []

namespace Recorded

variable {τ : Type} [Store τ]

instance : Store (Recorded τ) where
  commit batch s :=
    let c := Store.commit batch s.store
    { result := c.result
      store := ⟨c.store, s.results ++ [c.result]⟩
      delay := c.delay
      events := c.events }
  recent limit s := Store.recent limit s.store
  count s := Store.count s.store

end Recorded

/-! ### Runs without the results -/

variable {σ τ : Type}

theorem Recorded.isView_store [Store τ] : Store.IsView (Recorded.store : Recorded τ → τ) :=
  fun _ _ => rfl

namespace Worker

variable [Store τ] (w : Worker) (c : Conditions)

/-- A batch is committed to the store alike, and leaves at most its own result behind. -/
theorem commitBatch_erase (batch : List Transfer) (s : Recorded τ) :
    (w.commitBatch batch s).result = (w.commitBatch batch s.store).result ∧
      (w.commitBatch batch s).store.store = (w.commitBatch batch s.store).store ∧
      ((w.commitBatch batch s).store.results = s.results ∨
        (w.commitBatch batch s).store.results =
          s.results ++ [(w.commitBatch batch s.store).result]) := by
  unfold commitBatch commitAccepted
  split
  · exact ⟨rfl, rfl, .inl rfl⟩
  · exact ⟨rfl, rfl, .inr rfl⟩

variable [Source σ]

/-- A run over a recorded store is, without the results, the run over the store. -/
theorem runFor_erase (turns : ℕ) (source : σ) (store : τ) :
    (w.runFor c turns source ({ store } : Recorded τ)).map id Recorded.store =
      w.runFor c turns source store :=
  (w.runFor_map c Recorded.isView_store (Source.isView_id w.batchSize) turns source
    ({ store } : Recorded τ)).symm

/-! ### Commits that succeed -/

/-- Every commit that a run of some turns issues succeeds, and the store does not fail the run. -/
def CommitsSucceed (turns : ℕ) (source : σ) (store : τ) : Prop :=
  (∃ counts : List ℕ, (w.runFor c turns source ({ store } : Recorded τ)).progress.store.results =
      counts.map .ok) ∧
    ∀ error, (w.runFor c turns source store).ending ≠ .failed (.store error)

/-- Nothing that screening accepts is refused, as long as nothing is in the way of a commit. -/
theorem commitsSucceed_of_isReady {ρ κ : Type} [DecidableEq κ] [LawfulStore τ ρ κ]
    (hw : w.guard = Guard.numeric) (turns : ℕ) (source : σ) {store : τ}
    (hs : LawfulStore.IsReady store) : w.CommitsSucceed c turns source store := by
  -- The invariant: nothing is in the way of the next commit, and no result so far is an error.
  have hrun := w.runFrom_invariant c
    (P := fun _ (s : Recorded τ) =>
      LawfulStore.IsReady s.store ∧ ∃ counts : List ℕ, s.results = counts.map .ok) ?_ turns
    (p := { source, store := ({ store } : Recorded τ) }) ⟨hs, [], rfl⟩
  · obtain ⟨⟨-, hresults⟩, hending⟩ := hrun
    refine ⟨hresults, fun error => ?_⟩
    rw [← runFor_erase]
    exact hending error
  · rintro - s batch ⟨hready, counts, hcounts⟩
    obtain ⟨hr, hstore, hresults⟩ := w.commitBatch_erase batch s
    have hcommit := LawfulStore.isReady_commitScreened batch hready
    unfold LawfulStore.commitScreened at hcommit
    rw [← hw] at hcommit
    obtain ⟨hready', n, hn⟩ := hcommit
    refine ⟨n, hr.trans hn, hstore ▸ hready', ?_⟩
    rcases hresults with h | h
    · exact ⟨counts, h.trans hcounts⟩
    · exact ⟨counts ++ [n], by rw [h, hcounts, hn, List.map_append]; rfl⟩

end Worker

/-- A transfer alone can be committed to a table exactly when it can be stored. -/
theorem Table.commit_singleton_ok_iff (t : Transfer) (table : Table) :
    (∃ n, (Store.commit [t] table).result = .ok n) ↔ t.IsStorable := by
  change (∃ n, (Table.commit [t] table).result = .ok n) ↔ _
  by_cases h : ∀ u ∈ [t], u.IsStorable
  · rw [(commit_eq_ok h table).1]
    simpa using h
  · obtain ⟨why, hw⟩ := commit_eq_error h
    rw [hw]
    simpa using h

/-- **Screening is exact.** It accepts a transfer exactly when a table, whatever it holds, takes the
transfer alone. So no commit of any run fails, whatever the source hands out and the store holds,
and no run fails because of its store. -/
theorem Guard.accepted_iff_and_commits_succeed :
    (∀ (batch : List Transfer) (t : Transfer) (table : Table),
      t ∈ (Guard.numeric.screen batch).accepted ↔
        t ∈ batch ∧ ∃ n, (Store.commit [t] table).result = .ok n) ∧
    ∀ (σ : Type) [Source σ] (source : σ) (batchSize pollInterval : ℕ) (c : Conditions) (turns : ℕ),
      let w : Worker := { batchSize, pollInterval }
      (∀ rows : List Transfer, w.CommitsSucceed c turns source ({ rows } : MemoryStore)) ∧
        ∀ table : Table, w.CommitsSucceed c turns source table := by
  refine ⟨fun batch t table => ?_, ?_⟩
  · rw [accepted_eq_filter, List.mem_filter, decide_eq_true_iff, Table.commit_singleton_ok_iff]
  · intro σ _ source batchSize pollInterval c turns w
    exact ⟨fun rows => w.commitsSucceed_of_isReady c rfl turns source rfl,
      fun table => w.commitsSucceed_of_isReady c rfl turns source trivial⟩

end TransferLedger
