import Mathlib.Tactic
import TransferLedger.Proofs.HandedOut
import TransferLedger.Proofs.Turn

/-!
# The course of a run

Whatever the source, the store and the moment of shutdown are: a run takes batches in full, one
after another as they are handed out, and then it ends with nothing of any other batch.

* `Worker.Commits`, `Worker.totals`: the effect of some batches in turn, and their totals;
* `Worker.elapsed`, `Worker.elapsed_concat`: how long some batches take;
* `Worker.Stands`: where a run stands that has taken some batches in full;
* `Worker.Ends`: how a run ends from there;
* `Worker.runFrom_course`: every run takes some batches in full and ends from there;
* `Worker.runFrom_of_commits`: before shutdown a run takes what is handed out and not refused.
-/

namespace TransferLedger

/-! ### Totals -/

/-- The totals of two parts of a run together. -/
instance : Add Stats where
  add a b :=
    { batches := a.batches + b.batches
      received := a.received + b.received
      committed := a.committed + b.committed
      excluded := a.excluded + b.excluded
      duplicates := a.duplicates + b.duplicates }

theorem Stats.add_def (a b : Stats) :
    a + b =
      { batches := a.batches + b.batches
        received := a.received + b.received
        committed := a.committed + b.committed
        excluded := a.excluded + b.excluded
        duplicates := a.duplicates + b.duplicates } := rfl

theorem Stats.empty_add (s : Stats) : {} + s = s := by
  simp [Stats.add_def]

theorem Stats.add_empty (s : Stats) : s + {} = s := rfl

namespace Worker

/-- The totals over some batches, with how many transfers of each were new. -/
def totals (w : Worker) (batches : List (List Transfer)) (counts : List ℕ) : Stats where
  batches := batches.length
  received := (batches.map List.length).sum
  committed := counts.sum
  excluded := (batches.map fun b => (w.guard.screen b).excluded.length).sum
  duplicates :=
    (List.zipWith (fun b n => (w.guard.screen b).accepted.length - n) batches counts).sum

/-- One more batch is counted. -/
theorem totals_concat (w : Worker) {batches : List (List Transfer)} {counts : List ℕ}
    (h : counts.length = batches.length) (batch : List Transfer) (n : ℕ) (s : Stats) :
    (s + w.totals batches counts).count batch.length (w.guard.screen batch) n =
      s + w.totals (batches ++ [batch]) (counts ++ [n]) := by
  simp only [totals, Stats.count, Stats.add_def, List.map_append, List.sum_append,
    List.zipWith_append h.symm, List.length_append]
  simp [Nat.add_assoc]

/-! ### The effect of batches -/

section Effect

variable {τ : Type} [Store τ] (w : Worker)

/-- Screening batches in turn and committing what is accepted succeeds from one store to another,
with a number of new transfers for each batch. -/
inductive Commits : τ → List (List Transfer) → List ℕ → τ → Prop
  | nil (s : τ) : Commits s [] [] s
  | cons {s after : τ} {batch : List Transfer} {batches : List (List Transfer)} {n : ℕ}
      {counts : List ℕ} (commit : (w.commitBatch batch s).result = .ok n)
      (rest : Commits (w.commitBatch batch s).store batches counts after) :
      Commits s (batch :: batches) (n :: counts) after

variable {w} {s after : τ} {batches : List (List Transfer)} {counts : List ℕ}

theorem Commits.length_eq (h : w.Commits s batches counts after) :
    counts.length = batches.length := by
  induction h with
  | nil => rfl
  | cons _ _ ih => rw [List.length_cons, List.length_cons, ih]

/-- One more batch is committed. -/
theorem Commits.concat (h : w.Commits s batches counts after) {batch : List Transfer} {n : ℕ}
    (commit : (w.commitBatch batch after).result = .ok n) :
    w.Commits s (batches ++ [batch]) (counts ++ [n]) (w.commitBatch batch after).store := by
  induction h with
  | nil => exact .cons commit (.nil _)
  | cons first _ ih => exact .cons first (ih commit)

/-- When one more batch can be committed, it is committed behind the others. -/
theorem Commits.exists_ok_of_append (h : w.Commits s batches counts after)
    {batch : List Transfer} {more : List (List Transfer)} {counts' : List ℕ} {last : τ}
    (hmore : w.Commits s (batches ++ batch :: more) counts' last) :
    ∃ n, (w.commitBatch batch after).result = .ok n := by
  induction h generalizing counts' with
  | nil =>
    cases hmore with
    | cons commit => exact ⟨_, commit⟩
  | cons _ _ ih =>
    cases hmore with
    | cons _ rest => exact ih rest

end Effect

/-! ### Where a run stands -/

variable {σ τ : Type} [Source σ] [Store τ] (w : Worker)

/-- How long it takes to take a number of batches, the waits behind them included. -/
def elapsed : ℕ → σ → τ → ℕ
  | 0, _, _ => 0
  | n + 1, source, store =>
    let pull := Source.pull w.batchSize source
    match pull.supply with
    | .batch batch =>
      let commit := w.commitBatch batch store
      pull.delay + commit.delay + w.pollInterval + elapsed n pull.source commit.store
    | _ => 0

theorem elapsed_succ_of_batch {n : ℕ} {source : σ} {store : τ} {batch : List Transfer}
    (h : (Source.pull w.batchSize source).supply = .batch batch) :
    w.elapsed (n + 1) source store =
      (Source.pull w.batchSize source).delay + (w.commitBatch batch store).delay +
        w.pollInterval + w.elapsed n (Source.pull w.batchSize source).source
          (w.commitBatch batch store).store := by
  simp only [elapsed, h]

/-- A run from `p₀` has taken some batches in full, with these numbers of new transfers, and stands
at `p`. -/
structure Stands (p₀ : Progress σ τ) (batches : List (List Transfer)) (counts : List ℕ)
    (p : Progress σ τ) : Prop where
  handed : Source.handedOut w.batchSize batches.length p₀.source = batches
  source : p.source = Source.behind w.batchSize batches.length p₀.source
  commits : w.Commits p₀.store batches counts p.store
  stats : p.stats = p₀.stats + w.totals batches counts

/-- How a run ends at `r` that stands at `q` and takes no more batches. -/
inductive Ends (q r : Progress σ τ) : Ending → Prop
  | exhausted (supply : (Source.pull w.batchSize q.source).supply = .batch [])
      (source : r.source = (Source.pull w.batchSize q.source).source) (store : r.store = q.store)
      (stats : r.stats = q.stats) : Ends q r (.finished .exhausted)
  | stopped {reason : StopReason} (in_time : reason ≠ .exhausted) (source : r.source = q.source)
      (store : r.store = q.store) (stats : r.stats = q.stats) : Ends q r (.finished reason)
  | sourceFailed {error : SourceError}
      (supply : (Source.pull w.batchSize q.source).supply = .failed error)
      (source : r.source = (Source.pull w.batchSize q.source).source)
      (store : r.store = q.store) : Ends q r (.failed (.source error))
  | storeFailed {batch : List Transfer} {error : StoreError}
      (supply : (Source.pull w.batchSize q.source).supply = .batch batch)
      (commit : (w.commitBatch batch q.store).result = .error error)
      (source : r.source = (Source.pull w.batchSize q.source).source)
      (store : r.store = (w.commitBatch batch q.store).store) : Ends q r (.failed (.store error))
  | unfinished (store : r.store = q.store) (stats : r.stats = q.stats) : Ends q r .unfinished

variable {w} {p₀ p : Progress σ τ} {batches : List (List Transfer)} {counts : List ℕ}

theorem Stands.start (p₀ : Progress σ τ) : w.Stands p₀ [] [] p₀ where
  handed := rfl
  source := rfl
  commits := .nil _
  stats := Stats.add_empty _

/-- The source's next answer. -/
theorem Stands.answer_eq (h : w.Stands p₀ batches counts p) :
    Source.answer w.batchSize batches.length p₀.source =
      (Source.pull w.batchSize p.source).supply := by
  rw [Source.answer, h.source]

/-- One more batch is taken. -/
theorem Stands.taken (h : w.Stands p₀ batches counts p) {batch : List Transfer} {n : ℕ}
    {r : Progress σ τ} (supply : (Source.pull w.batchSize p.source).supply = .batch batch)
    (some_in : batch ≠ []) (commit : (w.commitBatch batch p.store).result = .ok n)
    (source : r.source = (Source.pull w.batchSize p.source).source)
    (store : r.store = (w.commitBatch batch p.store).store)
    (stats : r.stats = p.stats.count batch.length (w.guard.screen batch) n) :
    w.Stands p₀ (batches ++ [batch]) (counts ++ [n]) r where
  handed := Source.handedOut_concat h.handed (h.answer_eq.trans supply) some_in
  source := by
    rw [source, h.source, List.length_append, Source.behind_add]
    rfl
  commits := store ▸ h.commits.concat commit
  stats := by rw [stats, h.stats, w.totals_concat h.commits.length_eq]

/-- One more batch takes the time of its answer, of its commit and of the wait behind it. -/
theorem elapsed_concat {source : σ} {start after : τ}
    (handed : Source.handedOut w.batchSize batches.length source = batches)
    (commits : w.Commits start batches counts after) {batch : List Transfer}
    (hanswer : Source.answer w.batchSize batches.length source = .batch batch) :
    w.elapsed (batches.length + 1) source start =
      w.elapsed batches.length source start +
        (Source.pull w.batchSize (Source.behind w.batchSize batches.length source)).delay +
        (w.commitBatch batch after).delay + w.pollInterval := by
  -- The batches are taken from the front, where the first one has its own answer and commit.
  induction commits generalizing source with
  | nil =>
    have hfirst : (Source.pull w.batchSize source).supply = .batch batch := hanswer
    simp [hfirst, elapsed, Source.behind]
  | cons _ _ ih =>
    obtain ⟨hfirst, -, hrest⟩ := Source.handedOut_succ_eq_cons handed
    have hmore := ih hrest hanswer
    rw [List.length_cons, w.elapsed_succ_of_batch hfirst, hmore, w.elapsed_succ_of_batch hfirst,
      Source.behind]
    omega

/-- Every run takes some batches in full, no more than it takes turns, and ends from there. -/
theorem runFrom_course (c : Conditions) (turns : ℕ) (h : w.Stands p₀ batches counts p) :
    ∃ batches' counts' q, w.Stands p₀ batches' counts' q ∧
      batches'.length ≤ batches.length + turns ∧
      w.Ends q (w.runFrom c turns p).progress (w.runFrom c turns p).ending := by
  -- The induction is over the turns, and what carries it is that between two of them a run stands.
  induction turns generalizing p batches counts with
  | zero => exact ⟨batches, counts, p, h, le_rfl, .unfinished rfl rfl⟩
  | succ turns ih =>
    cases w.took_turn c p with
    | rest ending cause store stats =>
      obtain ⟨h1, h2⟩ := w.runFrom_succ_of_some c turns ending
      rw [h1, h2]
      refine ⟨batches, counts, p, h, Nat.le_add_right _ _, ?_⟩
      cases cause with
      | halted _ _ when_asked source =>
        have hin_time : ∀ asked : Prop, [Decidable asked] →
            (if asked then StopReason.beforeBatch else .waiting) ≠ .exhausted := by
          intro asked _
          split <;> simp
        exact .stopped (when_asked ▸ hin_time _) source store stats
      | exhausted supply _ source => exact .exhausted supply source store stats
      | failed supply source => exact .sourceFailed supply source store
      | unanswered => exact .unfinished store stats
    | refused supply commit ending source store =>
      obtain ⟨h1, h2⟩ := w.runFrom_succ_of_some c turns ending
      rw [h1, h2]
      exact ⟨batches, counts, p, h, Nat.le_add_right _ _, .storeFailed supply commit source store⟩
    | @taken batch n supply some_in commit ending source store stats _ =>
      have hnext := h.taken supply some_in commit source store stats
      have hlength : (batches ++ [batch]).length = batches.length + 1 := by simp
      cases he : (w.turn c p).ending with
      | some e =>
        obtain ⟨h1, h2⟩ := w.runFrom_succ_of_some c turns he
        rw [h1, h2]
        refine ⟨_, _, _, hnext, by omega, ?_⟩
        rcases ending e he with ⟨rfl, -⟩ | ⟨rfl, -⟩
        · exact .stopped (by simp) rfl rfl rfl
        · exact .unfinished rfl rfl
      | none =>
        obtain ⟨h1, h2⟩ := w.runFrom_succ_of_none c turns he
        rw [h1, h2]
        obtain ⟨batches', counts', q, hq, hle, hends⟩ := ih hnext
        exact ⟨batches', counts', q, hq, by omega, hends⟩

/-! ### Before shutdown -/

/-- A run that is not shut down takes the batches that are handed out and committed. -/
theorem runFrom_of_commits {c : Conditions} (h : w.Stands p₀ batches counts p)
    {next : List (List Transfer)} {counts' : List ℕ} {after : τ}
    (handed : Source.handedOut w.batchSize next.length p.source = next)
    (commits : w.Commits p.store next counts' after)
    (quiet : c.IsQuietUntil (p.time + w.elapsed next.length p.source p.store)) (turns : ℕ) :
    ∃ q, w.Stands p₀ (batches ++ next) (counts ++ counts') q ∧ q.store = after ∧
      q.time = p.time + w.elapsed next.length p.source p.store ∧
      (w.runFrom c (next.length + turns) p).progress = (w.runFrom c turns q).progress ∧
      (w.runFrom c (next.length + turns) p).ending = (w.runFrom c turns q).ending := by
  induction next generalizing p batches counts counts' with
  | nil =>
    cases commits
    refine ⟨p, by simpa using h, rfl, rfl, ?_⟩
    simp
  | cons batch next ih =>
    cases commits with
    | @cons _ _ _ _ n counts' commit rest =>
      obtain ⟨supply, hne, hrest⟩ := Source.handedOut_succ_eq_cons handed
      rw [List.length_cons, w.elapsed_succ_of_batch supply] at quiet
      obtain ⟨ending, source, store, stats, time⟩ :=
        w.turn_of_commit supply hne commit (quiet.mono (by omega))
      rw [← source] at hrest
      rw [← store] at rest
      obtain ⟨q, hq, hafter, hqtime, hprogress, hending⟩ :=
        ih (h.taken supply hne commit source store stats) hrest rest (by
          rw [source, store, time]
          exact quiet.mono (by omega))
      obtain ⟨h1, h2⟩ := w.runFrom_succ_of_none c (next.length + turns) ending
      refine ⟨q, ?_, hafter, ?_, ?_⟩
      · simpa using hq
      · rw [hqtime, time, source, store, List.length_cons, w.elapsed_succ_of_batch supply]
        omega
      · have hlength : (batch :: next).length + turns = next.length + turns + 1 := by
          rw [List.length_cons]
          omega
        rw [hlength, h1, h2]
        exact ⟨hprogress, hending⟩

end Worker

end TransferLedger
