import Mathlib.Tactic
import TransferLedger.Program
import TransferLedger.Proofs.Chronicle
import TransferLedger.Proofs.Interruption

/-!
# Runs of the program that are asked to stop

To be asked to stop is reported when the worker heeds it. A run of the program that does not report
it goes on as if nothing had been asked.

* `Program.stopReceived_mem_trace`: what the worker does when it is asked to stop is reported;
* `Program.commit_of_unstopped`, `Program.run_of_unstopped`: without such a report nothing depends on
  when the program was asked to stop.
-/

namespace TransferLedger.Program

/-! ### Reports -/

/-- That shutdown has ended a run is reported behind the stop that caused it. -/
theorem stopReceived_mem_trace {events : List Event} {reason : StopReason}
    (h : .stopping reason ∈ events) (hreason : reason ≠ .exhausted) :
    Event.stopReceived ∈ trace events := by
  refine List.mem_flatMap.2 ⟨_, h, ?_⟩
  cases reason with
  | exhausted => exact absurd rfl hreason
  | _ => simp

/-- Without a stop the reports are those of the worker. -/
theorem trace_of_unstopped {events : List Event} (h : Event.stopReceived ∉ trace events) :
    trace events = events := by
  induction events with
  | nil => rfl
  | cons e events ih =>
    have hrest : Event.stopReceived ∉ trace events := fun hmem =>
      h (List.mem_append_right _ hmem)
    have hone : trace [e] = [e] := by
      cases e with
      | stopping reason =>
        cases reason with
        | exhausted => rfl
        | _ => exact absurd (by simp [trace]) h
      | _ => rfl
    have hcons : trace (e :: events) = trace [e] ++ trace events := by simp [trace]
    rw [hcons, hone, ih hrest]
    rfl

/-! ### Runs -/

variable {σ : Type} [Source σ] {w : Worker} {stop : Option ℕ}

/-- The worker that reports no stop runs as if it had not been asked to. -/
theorem worker_run_of_unstopped {source : σ} {db : Database}
    (h : Event.stopReceived ∉ trace (w.run (conditions stop) source db).events) :
    w.run (conditions stop) source db = w.run {} source db := by
  have hrun : w.runFrom (conditions stop) (Source.bound source) { source, store := db } =
      w.runFrom {} (Source.bound source) { source, store := db } := by
    refine Worker.runFrom_of_unstopped fun reason hreason => ?_
    by_contra hne
    obtain ⟨n, hreported⟩ := Worker.hasReported_runFrom (Source.bound source) hreason
    have hstopping : Event.stopping reason ∈
        (w.run (conditions stop) source db).events := by
      refine List.mem_cons_of_mem _ ?_
      rw [hreported.events_eq]
      simp
    exact h (stopReceived_mem_trace hstopping hne)
  rw [Worker.run, Worker.run, Worker.runFor, Worker.runFor, hrun]

variable [FileFormat] {run : Run σ Database} {config : Config} {stdin : List UInt8} {db : Database}
  {d : Directory}

omit [Source σ] in
theorem not_mem_trace_of_ofRun (h : Event.stopReceived ∉ (ofRun run d).events) :
    Event.stopReceived ∉ trace run.events := by
  unfold ofRun at h
  dsimp only at h
  split at h
  · exact h
  · exact fun hmem => h (List.mem_append_left _ hmem)

/-- Records are committed as if nothing had been asked. -/
theorem commit_of_unstopped (h : Event.stopReceived ∉ (commit config stdin stop db d).events) :
    commit config stdin stop db d = commit config stdin none db d := by
  unfold commit at h ⊢
  dsimp only at h ⊢
  split at h
  · rename_i hstdin
    rw [if_pos hstdin, if_pos hstdin, worker_run_of_unstopped (not_mem_trace_of_ofRun h)]
    rfl
  · rename_i hstdin
    rw [if_neg hstdin, if_neg hstdin]
    split at h
    · rfl
    · rw [worker_run_of_unstopped (not_mem_trace_of_ofRun h)]
      rfl
    · rw [worker_run_of_unstopped (not_mem_trace_of_ofRun h)]
      rfl

/-- So does the whole program. -/
theorem run_of_unstopped {s : Surroundings} (h : Event.stopReceived ∉ (Program.run s).events) :
    Program.run s = Program.run { s with stop := none } := by
  unfold Program.run at h ⊢
  cases hplan : Plan.make s.args s.environment with
  | error n => rfl
  | ok plan =>
    rw [hplan] at h
    dsimp only at h ⊢
    cases hfault : plan.config.fault with
    | some fault => rfl
    | none =>
      rw [hfault] at h
      dsimp only [runPlan] at h ⊢
      cases hopen : (Database.openAt plan.config.dbPath s.directory).result with
      | error why => rfl
      | ok db =>
        rw [hopen] at h
        dsimp only [perform] at h ⊢
        cases hcommand : plan.command with
        | list limit => rfl
        | run input size =>
          rw [hcommand] at h
          dsimp only at h ⊢
          rw [commit_of_unstopped fun hmem => h (List.mem_append_right _ hmem)]

end TransferLedger.Program
