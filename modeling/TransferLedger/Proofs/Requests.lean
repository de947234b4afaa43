import Mathlib.Tactic
import TransferLedger.Proofs.Views

/-!
# What a run asks its source for

A source can keep the sizes of the batches that it is asked for, and a run over it is the same
otherwise. Every request of a run is for a batch of the size that the worker has.

* `Worker.runFrom_source_invariant`: what every request keeps of a source, a run keeps;
* `Noted`, `Noted.asked_behind`: a source that keeps what it is asked for;
* `Worker.run_noted`: a run over a source that keeps its requests.
-/

namespace TransferLedger

/-! ### What happens to a source -/

namespace Worker

variable {σ τ : Type} [Source σ] [Store τ] (w : Worker) (c : Conditions)

omit [Source σ] in
/-- What follows an answer leaves the source alone. -/
theorem receive_source (p : Progress σ τ) (supply : Supply) :
    (w.receive c p supply).progress.source = p.source := by
  cases supply with
  | stalled => rfl
  | failed error => rfl
  | batch batch =>
    by_cases hne : batch = []
    · subst hne
      rfl
    · cases hr : (w.commitBatch batch p.store).result with
      | error error => exact (w.receive_of_error c hne hr).2.1
      | ok n => exact (w.receive_of_ok c hne hr).1

/-- A turn leaves the source alone, or it makes one request. -/
theorem turn_source (p : Progress σ τ) :
    (w.turn c p).progress.source = p.source ∨
      (w.turn c p).progress.source = (Source.pull w.batchSize p.source).source := by
  unfold turn
  split
  · exact .inl rfl
  · dsimp only
    split
    · exact .inl rfl
    · split
      · exact .inr (w.receive_source c _ _)
      · exact .inl rfl

/-- What every request keeps of a source, a run keeps. -/
theorem runFrom_source_invariant {Q : σ → Prop}
    (hpull : ∀ source, Q source → Q (Source.pull w.batchSize source).source)
    (turns : ℕ) {p : Progress σ τ} (hp : Q p.source) :
    Q (w.runFrom c turns p).progress.source := by
  induction turns generalizing p with
  | zero => exact hp
  | succ turns ih =>
    have hturn : Q (w.turn c p).progress.source := by
      rcases w.turn_source c p with h | h
      · exact h ▸ hp
      · exact h ▸ hpull _ hp
    cases he : (w.turn c p).ending with
    | some e =>
      rw [(w.runFrom_succ_of_some c turns he).1]
      exact hturn
    | none =>
      rw [(w.runFrom_succ_of_none c turns he).1]
      exact ih hturn

end Worker

/-! ### Requests -/

/-- A source that keeps the sizes of the batches it is asked for. -/
structure Noted (σ : Type) where
  source : σ
  asked : List ℕ := []

namespace Noted

variable {σ : Type} [Source σ]

instance : Source (Noted σ) where
  pull max s :=
    let p := Source.pull max s.source
    { p with source := ⟨p.source, s.asked ++ [max]⟩ }
  bound s := Source.bound s.source

theorem isView_source (size : ℕ) : Source.IsView (source : Noted σ → σ) size := fun _ => rfl

@[simp] theorem asked_pull (size : ℕ) (s : Noted σ) :
    (Source.pull size s).source.asked = s.asked ++ [size] := rfl

/-- Behind a number of requests, these are what is kept. -/
theorem asked_behind (size n : ℕ) (s : Noted σ) :
    (Source.behind size n s).asked = s.asked ++ List.replicate n size := by
  induction n generalizing s with
  | zero => rw [Source.behind, List.replicate_zero, List.append_nil]
  | succ n ih => rw [Source.behind, ih, asked_pull, List.append_assoc, List.replicate_succ,
      List.singleton_append]

end Noted

namespace Worker

variable {σ τ : Type} [Source σ] [Store τ] (w : Worker) {c : Conditions}

/-- A run that comes to the end of its source asks once more than it takes batches. -/
theorem runFrom_asked (hc : c.IsUndisturbed) (turns : ℕ) {p : Progress (Noted σ) τ}
    (h : (w.runFrom c turns p).ending = .finished .exhausted) :
    ∃ n, (w.runFrom c turns p).progress.stats.batches = p.stats.batches + n ∧
      (w.runFrom c turns p).progress.source.asked =
        p.source.asked ++ List.replicate (n + 1) w.batchSize := by
  induction turns generalizing p with
  | zero => cases h
  | succ turns ih =>
    cases w.took_turn c p with
    | rest ending cause store stats =>
      obtain ⟨hprogress, hending⟩ := w.runFrom_succ_of_some c turns ending
      rw [hending] at h
      subst h
      cases cause with
      | halted fires =>
        rw [hc.never_fires] at fires
        cases fires
      | exhausted supply =>
        obtain ⟨-, hsource, -, hstats⟩ := w.turn_of_exhausted supply (hc.isQuietUntil _)
        rw [hprogress, hsource, hstats]
        exact ⟨0, rfl, rfl⟩
    | refused _ _ ending =>
      rw [(w.runFrom_succ_of_some c turns ending).2] at h
      cases h
    | taken supply some_in commit ending source store stats =>
      cases he : (w.turn c p).ending with
      | some e =>
        rw [(w.runFrom_succ_of_some c turns he).2] at h
        rcases ending e he with ⟨rfl, -⟩ | ⟨rfl, -⟩ <;> cases h
      | none =>
        obtain ⟨hprogress, hending⟩ := w.runFrom_succ_of_none c turns he
        rw [hending] at h
        obtain ⟨n, hbatches, hasked⟩ := ih h
        rw [hprogress]
        refine ⟨n + 1, ?_, ?_⟩
        · rw [hbatches, stats]
          show p.stats.batches + 1 + n = _
          omega
        · rw [hasked, source, Noted.asked_pull, List.append_assoc]
          rfl

/-- **Every request is for a batch of the size that the worker has.** A run over a source that keeps
what it is asked for is the same run otherwise, and when it comes to the end, the requests are one
more than the batches. -/
theorem run_noted (c : Conditions) (source : σ) (store : τ) :
    let noted := w.run c ({ source } : Noted σ) store
    noted.map Noted.source id = w.run c source store ∧
      (∀ size ∈ noted.progress.source.asked, size = w.batchSize) ∧
      (c.IsUndisturbed → noted.ending = .finished .exhausted →
        noted.progress.source.asked =
          List.replicate (noted.progress.stats.batches + 1) w.batchSize) := by
  intro noted
  refine ⟨?_, ?_, fun hc h => ?_⟩
  · exact (w.runFor_map c Store.isView_id (Noted.isView_source w.batchSize) (Source.bound source)
      ({ source } : Noted σ) store).symm
  · have hpull : ∀ s : Noted σ, (∀ size ∈ s.asked, size = w.batchSize) →
        ∀ size ∈ (Source.pull w.batchSize s).source.asked, size = w.batchSize := by
      intro s hs
      simpa [or_imp, forall_and] using hs
    exact w.runFrom_source_invariant c hpull (Source.bound source)
      (p := { source := { source }, store }) (by simp)
  · obtain ⟨n, hbatches, hasked⟩ := w.runFrom_asked hc _ h
    change noted.progress.stats.batches = 0 + n at hbatches
    change noted.progress.source.asked = [] ++ _ at hasked
    rw [hasked, hbatches, Nat.zero_add, List.nil_append]

end Worker

end TransferLedger
