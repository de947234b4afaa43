import Mathlib.Tactic
import TransferLedger.Proofs.Course
import TransferLedger.Proofs.History
import TransferLedger.Proofs.Intake
import TransferLedger.Source.Memory

/-!
# Conservation of transfers

Every transfer that a run receives is committed, excluded or a duplicate, and the store grows by
those that are committed. This holds for every rule on amounts and every source, and no more rows
are ever added than transfers are accepted.

* `Worker.HasFinished`: how a run that ends in order has gone, with the source that it leaves;
* `Worker.hasFinished_runFrom`: every run that ends in order has gone so;
* `Worker.Commits.account`: batch by batch, and in total, commits account for what is received;
* `Conserves`: a store under which no transfer gets lost from the totals;
* `stores_conserve`: these are the stores in memory and in a file.
-/

namespace TransferLedger

open LawfulStore

/-- No batch that is handed out is empty. -/
theorem Source.ne_nil_of_mem_handedOut {σ : Type} [Source σ] {size n : ℕ} {s : σ}
    {batch : List Transfer} (h : batch ∈ handedOut size n s) : batch ≠ [] := by
  induction n generalizing s with
  | zero => cases h
  | succ n ih =>
    rw [handedOut] at h
    split at h
    · rcases List.mem_cons.1 h with rfl | h
      · exact List.cons_ne_nil _ _
      · exact ih h
    · cases h

namespace Worker

/-! ### How a run has gone -/

section Finished

variable {σ τ : Type} [Source σ] [Store τ] (w : Worker)

/-- A run from `p` has taken some batches in full when it ends in order at `r`. Each of them has been
one request of its source, and if it has heard of the end of the source, that is one more. -/
structure HasFinished (p : Progress σ τ) (batches : List (List Transfer)) (counts : List ℕ)
    (r : Progress σ τ) (reason : StopReason) : Prop where
  handed : Source.handedOut w.batchSize batches.length p.source = batches
  commits : w.Commits p.store batches counts r.store
  stats : r.stats = p.stats + w.totals batches counts
  source : r.source =
    Source.behind w.batchSize (batches.length + if reason = .exhausted then 1 else 0) p.source
  exhausted : reason = .exhausted → Source.answer w.batchSize batches.length p.source = .batch []

/-- A run that ends in order has taken batches in full. -/
theorem hasFinished_runFrom {w : Worker} {c : Conditions} (turns : ℕ) {p : Progress σ τ}
    {reason : StopReason} (hend : (w.runFrom c turns p).ending = .finished reason) :
    ∃ batches counts, w.HasFinished p batches counts (w.runFrom c turns p).progress reason := by
  obtain ⟨batches, counts, q, hq, -, hends⟩ := runFrom_course (w := w) c turns (Stands.start p)
  rw [hend] at hends
  refine ⟨batches, counts, ?_⟩
  cases hends with
  | exhausted supply source store stats =>
    have hsource : (w.runFrom c turns p).progress.source =
        Source.behind w.batchSize (batches.length + 1) p.source := by
      rw [source, hq.source, Source.behind_add]
      rfl
    exact ⟨hq.handed, store ▸ hq.commits, stats.trans hq.stats, hsource,
      fun _ => hq.answer_eq.trans supply⟩
  | stopped in_time source store stats =>
    refine ⟨hq.handed, store ▸ hq.commits, stats.trans hq.stats, ?_, fun h => absurd h in_time⟩
    rw [if_neg in_time, Nat.add_zero, source, hq.source]

end Finished

/-! ### What commits account for -/

section Account

variable {τ ρ κ : Type} [DecidableEq κ] [Store τ] [LawfulStore τ ρ κ] {w : Worker}

variable {s after : τ} {batches : List (List Transfer)} {counts : List ℕ}

/-- Batch by batch, no more is added than accepted; in total, the rows grow by what is added, and
all that is received is added, excluded or left over. -/
theorem Commits.account (h : w.Commits s batches counts after) :
    List.Forall₂ (fun batch n => n ≤ (w.guard.screen batch).accepted.length) batches counts ∧
      (rows s).length + (w.totals batches counts).committed = (rows after).length ∧
      (w.totals batches counts).received = (w.totals batches counts).committed +
        (w.totals batches counts).excluded + (w.totals batches counts).duplicates := by
  induction h with
  | nil => exact ⟨.nil, rfl, rfl⟩
  | @cons s _ batch batches n counts commit _ ih =>
    obtain ⟨hle, hrows, hbalance⟩ := ih
    have hn := le_length_accepted commit
    have hgrowth : (rows s).length + n = (rows (w.commitBatch batch s).store).length :=
      (rows_commitAccepted_ok commit).2
    have hscreen := w.guard.length_accepted_add batch
    simp only [totals, List.map_cons, List.sum_cons, List.zipWith_cons_cons] at hrows hbalance ⊢
    exact ⟨.cons hn hle, by omega, by omega⟩

end Account

end Worker

/-! ### Every run -/

/-- Whatever the rule on amounts, the source, the size of batches, the waits and the moment of
shutdown are, a run over a store of this type that ends in order has taken each batch that its
source has handed out, has not added more of any than is accepted, and its totals balance. -/
def Conserves (τ : Type) [Store τ] : Prop :=
  ∀ {σ : Type} [Source σ] (w : Worker) (c : Conditions) (turns : ℕ) (source : σ) (store : τ)
    (reason : StopReason),
    let run := w.runFor c turns source store
    let stats := run.progress.stats
    run.ending = .finished reason →
      stats.received = stats.committed + stats.excluded + stats.duplicates ∧
      Store.count store + stats.committed = Store.count run.progress.store ∧
      ∃ batches counts,
        (Source.handedOut w.batchSize batches.length source = batches ∧ ∀ b ∈ batches, b ≠ []) ∧
        run.progress.source = Source.behind w.batchSize
          (batches.length + if reason = .exhausted then 1 else 0) source ∧
        (reason = .exhausted → Source.answer w.batchSize batches.length source = .batch []) ∧
        stats.batches = batches.length ∧ stats.received = batches.flatten.length ∧
        w.Commits store batches counts run.progress.store ∧
        stats.committed = counts.sum ∧
        List.Forall₂ (fun batch n => n ≤ (w.guard.screen batch).accepted.length) batches counts

/-- The laws of a store are enough. -/
theorem LawfulStore.conserves {τ ρ κ : Type} [DecidableEq κ] [Store τ] [LawfulStore τ ρ κ]
    (hcount : ∀ s : τ, Store.count s = (rows s).length) : Conserves τ := by
  intro σ _ w c turns source store reason run stats hend
  obtain ⟨batches, counts, hfinished⟩ :=
    Worker.hasFinished_runFrom (p := { source, store }) turns hend
  obtain ⟨hle, hrows, hbalance⟩ := hfinished.commits.account
  have hstats : stats = w.totals batches counts :=
    hfinished.stats.trans (Stats.empty_add _)
  rw [hstats, hcount, hcount]
  refine ⟨hbalance, hrows, batches, counts, ⟨hfinished.handed, fun b hb => ?_⟩, hfinished.source,
    hfinished.exhausted, rfl, ?_, hfinished.commits, rfl, hle⟩
  · rw [← hfinished.handed] at hb
    exact Source.ne_nil_of_mem_handedOut hb
  · rw [List.length_flatten]
    rfl

/-- **Transfers are conserved.** In memory and in a file, whatever is stored already, a run that
ends in order accounts for every transfer that it has received, and for every row that the store has
gained. -/
theorem stores_conserve : Conserves MemoryStore ∧ Conserves Database :=
  ⟨LawfulStore.conserves fun _ => rfl, LawfulStore.conserves fun _ => rfl⟩

/-- Shutdown comes in the wait behind the second of three batches, which are larger than asked for
and have names in common with each other and with what is stored. -/
theorem stores_conserve_on_script :
    let w : Worker := { batchSize := 1, pollInterval := 100 }
    let c : Conditions := { shutdown := [(150, .fire)] }
    let source : Script :=
      ⟨[[sampleTransfer 1 5, sampleTransfer 2 (-6), sampleTransfer 2 7, sampleTransfer 2 8],
        [sampleTransfer 2 7, sampleTransfer 3 9], [sampleTransfer 4 9]], .ends⟩
    let store : MemoryStore := { rows := [sampleTransfer 1 4] }
    let run := w.runFor c 4 source store
    let stats := run.progress.stats
    run.ending = .finished .idle ∧
      stats = { batches := 2, received := 6, committed := 2, excluded := 1, duplicates := 3 } ∧
      Store.count store + stats.committed = Store.count run.progress.store := by
  intro w c source store run stats
  have hending : run.ending = .finished .idle := by decide +kernel
  have hconserves := stores_conserve.1 w c 4 source store .idle hending
  exact ⟨hending, by decide +kernel, hconserves.2.1⟩

end TransferLedger
