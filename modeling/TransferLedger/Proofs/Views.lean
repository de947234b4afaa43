import Mathlib.Tactic
import TransferLedger.Proofs.Course

/-!
# Runs with another source and another store

Where a source or a store keeps more than a run looks at, the run is the same without it.

* `Run.map`: a run with functions applied to its source and its store;
* `Source.IsView`, `Store.IsView`: functions under which requests and commits come to the same;
* `Source.IsView.handedOut_eq`, `Source.IsView.elapsed_eq`: a source hands out what its view hands
  out, in the same time;
* `Worker.runFor_map`: a run over what is mapped is what the run is mapped to.
-/

namespace TransferLedger

variable {σ ρ τ υ : Type}

/-- A request with a function applied to the source that it leaves. -/
def Pull.map (f : σ → ρ) (pull : Pull σ) : Pull ρ := { pull with source := f pull.source }

/-- A commit with a function applied to the store that it leaves. -/
def Commit.map (g : τ → υ) (commit : Commit τ) : Commit υ := { commit with store := g commit.store }

variable (f : σ → ρ) (g : τ → υ)

/-- A progress with functions applied to its source and its store. -/
def Progress.map (p : Progress σ τ) : Progress ρ υ :=
  { p with source := f p.source, store := g p.store }

/-- A stretch with functions applied to its source and its store. -/
def Stretch.map (s : Stretch σ τ) : Stretch ρ υ := { s with progress := s.progress.map f g }

/-- A run with functions applied to its source and its store. -/
def Run.map (r : Run σ τ) : Run ρ υ := { r with progress := r.progress.map f g }

/-- Requests of a size are answered alike by a source and by what it is mapped to. -/
def Source.IsView [Source σ] [Source ρ] (size : ℕ) : Prop :=
  ∀ s, Source.pull size (f s) = (Source.pull size s).map f

/-- A batch is committed alike to a store and to what it is mapped to. -/
def Store.IsView [Store τ] [Store υ] : Prop :=
  ∀ batch s, Store.commit batch (g s) = (Store.commit batch s).map g

theorem Source.isView_id [Source σ] (size : ℕ) : Source.IsView (id : σ → σ) size := fun _ => rfl

theorem Store.isView_id [Store τ] : Store.IsView (id : τ → τ) := fun _ _ => rfl

/-! ### Answers -/

namespace Source.IsView

variable {f} [Source σ] [Source ρ] {size : ℕ} (h : Source.IsView f size)
include h

theorem supply_eq (s : σ) : (pull size (f s)).supply = (pull size s).supply := by
  rw [h]
  rfl

theorem source_eq (s : σ) : (pull size (f s)).source = f (pull size s).source := by
  rw [h]
  rfl

theorem delay_eq (s : σ) : (pull size (f s)).delay = (pull size s).delay := by
  rw [h]
  rfl

theorem behind_eq (n : ℕ) (s : σ) : behind size n (f s) = f (behind size n s) := by
  induction n generalizing s with
  | zero => rfl
  | succ n ih => rw [behind, behind, h.source_eq, ih]

theorem handedOut_eq (n : ℕ) (s : σ) : handedOut size n (f s) = handedOut size n s := by
  induction n generalizing s with
  | zero => rfl
  | succ n ih => simp only [handedOut, h.supply_eq, h.source_eq, ih]

theorem elapsed_eq [Store τ] {w : Worker} (hsize : w.batchSize = size) (n : ℕ) (s : σ) (store : τ) :
    w.elapsed n (f s) store = w.elapsed n s store := by
  subst hsize
  induction n generalizing s store with
  | zero => rfl
  | succ n ih => simp only [Worker.elapsed, h.supply_eq, h.source_eq, h.delay_eq, ih]

end Source.IsView

namespace Worker

variable {f g} (w : Worker) (c : Conditions)

theorem wait_map (p : Progress σ τ) : w.wait c (p.map f g) = (w.wait c p).map f g := by
  obtain ⟨source, store, time, stats⟩ := p
  change w.wait c ⟨f source, g store, time, stats⟩ = _
  simp only [wait]
  split
  · rfl
  · split
    · rfl
    · split <;> rfl

theorem andThen_map {s : Stretch σ τ} {next : Progress σ τ → Stretch σ τ}
    {next' : Progress ρ υ → Stretch ρ υ} (h : ∀ p : Progress σ τ, next' (p.map f g) = (next p).map f g) :
    (s.map f g).andThen next' = (s.andThen next).map f g := by
  cases hs : s.ending with
  | some e => simp [Stretch.andThen, Stretch.map, hs]
  | none => simp [Stretch.andThen, Stretch.map, hs, h]

variable [Store τ] [Store υ] (hg : Store.IsView g)
include hg

theorem commitAccepted_map (s : Screened) (store : τ) :
    commitAccepted s (g store) = (commitAccepted s store).map g := by
  unfold commitAccepted
  split
  · rfl
  · exact hg _ _

theorem process_map (p : Progress σ τ) (batch : List Transfer) :
    w.process (p.map f g) batch = (w.process p batch).map f g := by
  simp only [process, Progress.map, commitAccepted_map hg]
  generalize commitAccepted (w.guard.screen batch) p.store = commit
  obtain ⟨result, store, delay, events⟩ := commit
  cases result <;> rfl

theorem receive_map (p : Progress σ τ) (supply : Supply) :
    w.receive c (p.map f g) supply = (w.receive c p supply).map f g := by
  match supply with
  | .stalled => rfl
  | .failed error => rfl
  | .batch [] => rfl
  | .batch (t :: ts) =>
    rw [receive_cons, receive_cons, w.process_map hg, andThen_map (w.wait_map c)]

variable [Source σ] [Source ρ] (hf : Source.IsView f w.batchSize)
include hf

theorem turn_map (p : Progress σ τ) : w.turn c (p.map f g) = (w.turn c p).map f g := by
  obtain ⟨source, store, time, stats⟩ := p
  change w.turn c ⟨f source, g store, time, stats⟩ = _
  simp only [turn, hf source]
  generalize Source.pull w.batchSize source = pull
  -- All that a turn looks at before its batch are the time and the answer.
  have harrival : (pull.map f).arrival time = pull.arrival time := rfl
  have hreceive : w.receive c
      ⟨(pull.map f).source, g store, time + (pull.map f).delay, stats⟩ (pull.map f).supply =
      (w.receive c ⟨pull.source, store, time + pull.delay, stats⟩ pull.supply).map f g :=
    w.receive_map c hg ⟨pull.source, store, time + pull.delay, stats⟩ pull.supply
  rw [harrival, hreceive]
  split
  · rfl
  · split
    · rfl
    · split <;> rfl

theorem runFrom_map (turns : ℕ) (p : Progress σ τ) :
    w.runFrom c turns (p.map f g) = (w.runFrom c turns p).map f g := by
  induction turns generalizing p with
  | zero => rfl
  | succ turns ih =>
    rw [runFrom, runFrom, w.turn_map c hg hf]
    cases h : (w.turn c p).ending with
    | some e => simp [Stretch.map, h, Run.map, Progress.map]
    | none => simp [Stretch.map, h, Run.map, ih]

/-- Runs over a source and a store, and over what they are mapped to, are alike. -/
theorem runFor_map (turns : ℕ) (source : σ) (store : τ) :
    w.runFor c turns (f source) (g store) = (w.runFor c turns source store).map f g := by
  have hrun := w.runFrom_map c hg hf turns { source, store }
  change w.runFrom c turns { source := f source, store := g store } = _ at hrun
  simp only [runFor, hrun]
  rfl

end Worker

end TransferLedger
