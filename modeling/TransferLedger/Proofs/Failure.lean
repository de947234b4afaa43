import Mathlib.Tactic
import TransferLedger.Proofs.Course
import TransferLedger.Proofs.LawfulStore
import TransferLedger.Proofs.Requests
import TransferLedger.Source.Memory

/-!
# Runs that fail

The source fails a request for a batch, or the store refuses what is accepted of one. Either way the
run fails with the same error, and what it leaves is the effect of the batches before.

* `Worker.ComesTo`: a run takes some batches in full and hears the answer behind them;
* `Worker.FailsBehind`, `Worker.ComesTo.failsBehind`: a run fails there with an error of the store;
* `Worker.commits_of_idle`: batches of which nothing is accepted do not concern the store;
* `Worker.failure_leaves_completed`: what a run has done when it fails.
-/

namespace TransferLedger

open LawfulStore

/-- An armed failure is used up by the commit that it fails. -/
theorem MemoryStore.commit_failNext (batch : List Transfer) (s : MemoryStore)
    (error : StoreError) :
    Store.commit batch (s.failNext error) =
      { result := .error error, store := { s with armed := none } } := rfl

namespace Worker

variable {σ τ : Type} [Source σ] [Store τ] (w : Worker)

/-! ### The batches before a failure -/

/-- A run from `p` takes some batches in full, and hears the answer behind them before shutdown is
requested. -/
structure ComesTo (c : Conditions) (p : Progress σ τ) (batches : List (List Transfer))
    (counts : List ℕ) (after : τ) : Prop where
  handed : Source.handedOut w.batchSize batches.length p.source = batches
  commits : w.Commits p.store batches counts after
  quiet : c.IsQuietUntil (p.time + w.elapsed batches.length p.source p.store +
    (Source.pull w.batchSize (Source.behind w.batchSize batches.length p.source)).delay)

/-- The same progress over a source that keeps what it is asked for from here on. -/
def noting (p : Progress σ τ) : Progress (Noted σ) τ := { p with source := { source := p.source } }

/-- A run from `p` fails with an error of the store at the answer behind some batches, and asks for
nothing more: a source that keeps its requests has kept one for each batch, and that one. -/
structure FailsBehind (c : Conditions) (turns : ℕ) (p : Progress σ τ) (batches : ℕ)
    (error : StoreError) : Prop where
  ending : (w.runFrom c turns p).ending = .failed (.store error)
  source : (w.runFrom c turns p).progress.source =
    Source.behind w.batchSize (batches + 1) p.source
  requests : (w.runFrom c turns (noting p)).progress.source.asked =
    List.replicate (batches + 1) w.batchSize

variable {w} {c : Conditions} {p : Progress σ τ} {batches : List (List Transfer)}
variable {counts : List ℕ} {after : τ}

/-- When the turn at that answer ends the run, it is the last one. -/
theorem ComesTo.runFrom_eq (h : w.ComesTo c p batches counts after) {turns : ℕ}
    (hturns : batches.length < turns) :
    ∃ q, w.Stands p batches counts q ∧ q.store = after ∧
      c.IsQuietUntil (q.time + (Source.pull w.batchSize q.source).delay) ∧
      ∀ e, (w.turn c q).ending = some e →
        (w.runFrom c turns p).progress = (w.turn c q).progress ∧
          (w.runFrom c turns p).ending = e := by
  obtain ⟨k, rfl⟩ := Nat.exists_eq_add_of_lt hturns
  obtain ⟨q, hq, hafter, htime, hprogress, hending⟩ :=
    runFrom_of_commits (Stands.start p) h.handed h.commits
      (h.quiet.mono (Nat.le_add_right _ _)) (k + 1)
  have hquiet : c.IsQuietUntil (q.time + (Source.pull w.batchSize q.source).delay) := by
    rw [hq.source, htime]
    exact h.quiet
  refine ⟨q, hq, hafter, hquiet, fun e he => ?_⟩
  obtain ⟨h1, h2⟩ := w.runFrom_succ_of_some c k he
  rw [Nat.add_assoc]
  exact ⟨hprogress.trans h1, hending.trans h2⟩

theorem ComesTo.runFrom_of_failed (h : w.ComesTo c p batches counts after) {turns : ℕ}
    (hturns : batches.length < turns) {error : SourceError}
    (hanswer : Source.answer w.batchSize batches.length p.source = .failed error) :
    (w.runFrom c turns p).ending = .failed (.source error) ∧
      (w.runFrom c turns p).progress.store = after := by
  obtain ⟨q, hq, hafter, hquiet, hlast⟩ := h.runFrom_eq hturns
  obtain ⟨ending, -, store⟩ := w.turn_of_failure (hq.answer_eq.symm.trans hanswer) hquiet
  obtain ⟨hprogress, hending⟩ := hlast _ ending
  rw [hprogress]
  exact ⟨hending, store.trans hafter⟩

/-- When the batch behind the others is refused, the run fails with the store's error. -/
theorem ComesTo.runFrom_of_refused (h : w.ComesTo c p batches counts after) {turns : ℕ}
    (hturns : batches.length < turns) {batch : List Transfer} {error : StoreError}
    (hanswer : Source.answer w.batchSize batches.length p.source = .batch batch)
    (hcommit : (w.commitBatch batch after).result = .error error) :
    (w.runFrom c turns p).ending = .failed (.store error) ∧
      (w.runFrom c turns p).progress.source =
        Source.behind w.batchSize (batches.length + 1) p.source ∧
      (w.runFrom c turns p).progress.store = (w.commitBatch batch after).store := by
  obtain ⟨q, hq, rfl, hquiet, hlast⟩ := h.runFrom_eq hturns
  obtain ⟨ending, source, store⟩ :=
    w.turn_of_refusal (hq.answer_eq.symm.trans hanswer) (ne_nil_of_commitBatch_error hcommit)
      hcommit hquiet
  obtain ⟨hprogress, hending⟩ := hlast _ ending
  have hbehind : (Source.pull w.batchSize q.source).source =
      Source.behind w.batchSize (batches.length + 1) p.source := by
    rw [hq.source, Source.behind_add]
    rfl
  refine ⟨hending, ?_, ?_⟩
  · rw [hprogress, source, hbehind]
  · rw [hprogress, store]

/-- A source that keeps its requests comes to the same. -/
theorem ComesTo.noting (h : w.ComesTo c p batches counts after) :
    w.ComesTo c (noting p) batches counts after := by
  have hview := Noted.isView_source (σ := σ) w.batchSize
  let noted : Noted σ := { source := p.source }
  refine ⟨?_, h.commits, ?_⟩
  · exact (hview.handedOut_eq batches.length noted).symm.trans h.handed
  · have hbehind : Source.behind w.batchSize batches.length p.source =
        (Source.behind w.batchSize batches.length noted).source :=
      hview.behind_eq batches.length noted
    have helapsed : w.elapsed batches.length p.source p.store =
        w.elapsed batches.length noted p.store :=
      hview.elapsed_eq rfl batches.length noted p.store
    have hquiet := h.quiet
    rw [hbehind, helapsed] at hquiet
    exact hquiet

/-- Nor is anything asked of the source behind the answer that is refused. -/
theorem ComesTo.failsBehind (h : w.ComesTo c p batches counts after) {turns : ℕ}
    (hturns : batches.length < turns) {batch : List Transfer} {error : StoreError}
    (hanswer : Source.answer w.batchSize batches.length p.source = .batch batch)
    (hcommit : (w.commitBatch batch after).result = .error error) :
    w.FailsBehind c turns p batches.length error := by
  obtain ⟨ending, source, -⟩ := h.runFrom_of_refused hturns hanswer hcommit
  refine ⟨ending, source, ?_⟩
  have hbehind : Source.behind w.batchSize batches.length p.source =
      (Source.behind w.batchSize batches.length (Worker.noting p).source).source :=
    (Noted.isView_source w.batchSize).behind_eq batches.length (Worker.noting p).source
  rw [Source.answer, hbehind] at hanswer
  obtain ⟨-, hnoted, -⟩ := h.noting.runFrom_of_refused hturns hanswer hcommit
  rw [hnoted, Noted.asked_behind]
  rfl

/-! ### Batches that do not concern the store -/

/-- Batches of which nothing is accepted are taken without a commit. -/
theorem commits_of_idle {idle : List (List Transfer)}
    (h : ∀ batch ∈ idle, (w.guard.screen batch).accepted = []) (store : τ) :
    w.Commits store idle (List.replicate idle.length 0) store := by
  induction idle with
  | nil => exact .nil store
  | cons batch idle ih =>
    obtain ⟨hbatch, hidle⟩ := List.forall_mem_cons.1 h
    have hcommit := commitBatch_of_accepted_nil hbatch store
    refine .cons (congrArg Commit.result hcommit) ?_
    rw [hcommit]
    exact ih hidle

end Worker

/-! ### The failure -/

/-- **A failing run leaves exactly the batches before the failure.** Whatever else happens to it, a
run that fails has taken some batches in full and fails at the answer behind them. Conversely, let a
run take some batches in full and hear the answer behind them. If the answer is a failure of the
source, the run fails with it, and the store is as these batches leave it. If it is a batch that the
store refuses, the run fails with the store's error, the rows are those that the earlier batches
leave, and nothing more is asked of the source. Batches of which nothing is accepted leave any store
alone, so a failure that is armed at any point of a run waits for the next batch of which something
is accepted. -/
theorem Worker.failure_leaves_completed {σ : Type} [Source σ] (w : Worker) (c : Conditions)
    (turns : ℕ) :
    (∀ {τ : Type} [Store τ] (p : Progress σ τ) (error : WorkerError),
      (w.runFrom c turns p).ending = .failed error →
      ∃ batches counts q, w.Stands p batches counts q ∧
        w.Ends q (w.runFrom c turns p).progress (.failed error)) ∧
    (∀ {τ : Type} [Store τ] (p : Progress σ τ) (batches : List (List Transfer))
        (counts : List ℕ) (after : τ),
      w.ComesTo c p batches counts after → batches.length < turns →
      let answer := Source.answer w.batchSize batches.length p.source
      let run := w.runFrom c turns p
      (∀ error, answer = .failed error →
        run.ending = .failed (.source error) ∧ run.progress.store = after) ∧
      ∀ batch error, answer = .batch batch → (w.commitBatch batch after).result = .error error →
        w.FailsBehind c turns p batches.length error ∧
          ∀ {ρ κ : Type} [DecidableEq κ] [LawfulStore τ ρ κ],
            rows run.progress.store = rows after) ∧
    (∀ {τ : Type} [Store τ] (p : Progress σ τ) (idle : List (List Transfer)),
      Source.handedOut w.batchSize idle.length p.source = idle →
      (∀ batch ∈ idle, (w.guard.screen batch).accepted = []) →
      c.IsQuietUntil (p.time + w.elapsed idle.length p.source p.store) →
      let run := w.runFrom c idle.length p
      run.ending = .unfinished ∧ run.progress.store = p.store ∧
        run.progress.stats.batches = p.stats.batches + idle.length) ∧
    ∀ (p : Progress σ MemoryStore) (before : ℕ) (idle : List (List Transfer))
        (batch : List Transfer) (error : StoreError),
      (w.runFrom c before p).ending = .unfinished →
      let q := (w.runFrom c before p).progress
      let armed := { q with store := q.store.failNext error }
      Source.handedOut w.batchSize idle.length q.source = idle →
      (∀ batch ∈ idle, (w.guard.screen batch).accepted = []) →
      Source.answer w.batchSize idle.length q.source = .batch batch →
      (w.guard.screen batch).accepted ≠ [] →
      c.IsQuietUntil (q.time + w.elapsed idle.length q.source armed.store +
        (Source.pull w.batchSize (Source.behind w.batchSize idle.length q.source)).delay) →
      idle.length < turns →
      w.FailsBehind c turns armed idle.length error ∧
        (w.runFrom c turns armed).progress.store = { q.store with armed := none } ∧
        ∃ batches counts, Source.handedOut w.batchSize batches.length p.source = batches ∧
          w.Commits p.store batches counts q.store := by
  refine ⟨?_, ?_, ?_, ?_⟩
  · intro τ _ p error herror
    obtain ⟨batches, counts, q, hq, -, hends⟩ := runFrom_course c turns (Stands.start p)
    rw [herror] at hends
    exact ⟨batches, counts, q, hq, hends⟩
  · intro τ _ p batches counts after h hturns answer run
    constructor
    · intro error hanswer
      exact h.runFrom_of_failed hturns hanswer
    · intro batch error hanswer hcommit
      obtain ⟨-, -, hstore⟩ := h.runFrom_of_refused hturns hanswer hcommit
      refine ⟨h.failsBehind hturns hanswer hcommit, ?_⟩
      intro ρ κ _ _
      rw [hstore]
      exact rows_commitAccepted_error hcommit
  · intro τ _ p idle handed hidle quiet run
    obtain ⟨q, hq, hstore, -, hprogress, hending⟩ :=
      runFrom_of_commits (Stands.start p) handed (w.commits_of_idle hidle p.store) quiet 0
    rw [Nat.add_zero] at hprogress hending
    refine ⟨hending, ?_, ?_⟩
    · exact (congrArg Progress.store hprogress).trans hstore
    · exact (congrArg (·.stats.batches) hprogress).trans (by rw [runFrom_zero, hq.stats])
  · intro p before idle batch error hbefore q armed handed hidle hanswer haccepted quiet hturns
    have hcommit := commitBatch_of_accepted_ne_nil haccepted armed.store
    rw [MemoryStore.commit_failNext] at hcommit
    have hcomes : w.ComesTo c armed idle (List.replicate idle.length 0) armed.store :=
      ⟨handed, w.commits_of_idle hidle armed.store, quiet⟩
    have hrefused := congrArg Commit.result hcommit
    obtain ⟨-, -, hstore⟩ := hcomes.runFrom_of_refused hturns hanswer hrefused
    refine ⟨hcomes.failsBehind hturns hanswer hrefused,
      hstore.trans (congrArg Commit.store hcommit), ?_⟩
    obtain ⟨batches, counts, r, hr, -, hends⟩ := runFrom_course c before (Stands.start p)
    rw [hbefore] at hends
    cases hends with
    | unfinished store => exact ⟨batches, counts, hr.handed, store ▸ hr.commits⟩

/-- The source fails behind three batches, and before that a failure is armed behind the first. -/
theorem Worker.failure_behind_first_batch :
    let w : Worker := { batchSize := 1 }
    let fault := SourceError.reported "closed"
    let batches := [[sampleTransfer 1 5], [sampleTransfer 2 (-1)], [sampleTransfer 3 7]]
    let p : Progress Script MemoryStore := { source := ⟨batches, .fails fault⟩, store := {} }
    let q := (w.runFrom {} 1 p).progress
    let error := StoreError.task "full"
    (∃ after, w.ComesTo {} p batches [1, 0, 1] after) ∧
      (w.runFrom {} 4 p).ending = .failed (.source fault) ∧
      (w.runFrom {} 4 p).progress.store.rows = [sampleTransfer 1 5, sampleTransfer 3 7] ∧
      (w.runFrom {} 4 { q with store := q.store.failNext error }).ending =
        .failed (.store error) ∧
      (w.runFrom {} 4 { q with store := q.store.failNext error }).progress.store.rows =
        [sampleTransfer 1 5] := by
  intro w fault batches p q error
  have hquiet : ({} : Conditions).IsUndisturbed := ⟨rfl, rfl⟩
  obtain ⟨-, hfails, -, harmed⟩ := w.failure_leaves_completed (σ := Script) {} 4
  have hcomes : ∃ after, w.ComesTo {} p batches [1, 0, 1] after :=
    ⟨_, by decide +kernel, .cons (by decide +kernel) (.cons (by decide +kernel)
      (.cons (by decide +kernel) (.nil _))), hquiet.isQuietUntil _⟩
  obtain ⟨after, h⟩ := hcomes
  obtain ⟨hending, -⟩ := (hfails p batches _ _ h (by decide)).1 fault (by decide +kernel)
  obtain ⟨hbehind, hleft, -⟩ := harmed p 1 [[sampleTransfer 2 (-1)]] [sampleTransfer 3 7] error
    (by decide +kernel) (by decide +kernel) (by decide +kernel) (by decide +kernel)
    (by decide +kernel) (hquiet.isQuietUntil _) (by decide)
  refine ⟨⟨after, h⟩, hending, by decide +kernel, hbehind.ending, ?_⟩
  rw [hleft]
  decide +kernel

end TransferLedger
