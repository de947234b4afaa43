import Mathlib.Tactic
import TransferLedger.Proofs.History

/-!
# What is reported of batches, requests and commits

* `LogLine`, `Event.line`: a report as it is read in a log;
* `Excluded.lines`, `Guard.lines_screenTrace`: what the screening of a batch reports;
* `Screened.lines`, `Worker.lines_batchTrace`: what is reported of a batch that is committed;
* `Event.isAside`, `Source.IsDiscreet`, `Store.IsDiscreet`: reports of sources and stores;
* `Lines.events_pull`: a request for lines reports each line that it skips;
* `Database.events_of_ok`: a database reports each batch that it commits.
-/

namespace TransferLedger

/-- A line of a log. -/
structure LogLine where
  level : Level
  message : String
  fields : List (String × String)
  deriving DecidableEq

/-- A report as it is read in a log. -/
def Event.line (e : Event) : LogLine := ⟨e.level, e.message, e.fields⟩

open Event (line number)

/-! ### Screening -/

/-- The line about a transfer that is excluded. -/
def Excluded.line (e : Excluded) : LogLine where
  level := .warn
  message := "Excluding transfer from commit"
  fields :=
    [("tx_hash", String.ofList e.transfer.shortHash),
      ("log_index", number e.transfer.logIndex.toNat),
      ("block_number", number e.transfer.blockNumber.toNat),
      ("amount", String.ofList e.transfer.amount.toText), ("reason", e.reason.message)]

/-- The lines about a transfer that is excluded. That its amount is rejected comes first. -/
def Excluded.lines (e : Excluded) : List LogLine :=
  match e.reason with
  | .integer .. => [e.line]
  | .amount why =>
    [{ level := .debug
       message := "Amount rejected by guard"
       fields := [("amount", String.ofList e.transfer.amount.toText), ("reason", why.message)] },
      e.line]

/-- The lines about batch number `k` when it has been committed. -/
def Screened.lines (k : ℕ) (s : Screened) : List LogLine :=
  (if s.excluded.length = 0 then []
    else
      [{ level := .warn
         message := "Batch committed without out-of-range transfers"
         fields := [("batch", number k), ("excluded", number s.excluded.length)] }]) ++
    [{ level := .debug
       message := "Batch processed"
       fields := [("batch", number k), ("accepted", number s.accepted.length)] }]

namespace Guard

/-- What is reported of a transfer is what is reported of its exclusion. -/
theorem lines_examineTrace (t : Transfer) : (numeric.examineTrace t).map line =
    ((numeric.examine t).map (Excluded.mk t)).toList.flatMap Excluded.lines := by
  have htrace : numeric.trace t.amount =
      (Numeric.verdict t.amount).toList.map (Event.amountRejected t.amount) := rfl
  have hverdict : numeric.verdict t.amount = Numeric.verdict t.amount := rfl
  rw [examineTrace, examine, htrace, hverdict]
  -- The amount is judged, and its rejection reported, only when both numbers fit.
  cases oversized t with
  | some which => rfl
  | none => cases Numeric.verdict t.amount <;> rfl

/-- The exclusions of a batch are reported one after another. -/
theorem lines_screenTrace (batch : List Transfer) : (numeric.screenTrace batch).map line =
    (numeric.screen batch).excluded.flatMap Excluded.lines := by
  induction batch with
  | nil => rfl
  | cons t ts ih =>
    have hcons : (numeric.screen (t :: ts)).excluded =
        ((numeric.examine t).map (Excluded.mk t)).toList ++ (numeric.screen ts).excluded := by
      cases h : numeric.examine t <;> simp [screen, h]
    rw [hcons, List.flatMap_append, ← lines_examineTrace, ← ih, screenTrace, List.flatMap_cons,
      List.map_append]
    rfl

end Guard

theorem Worker.lines_batchTrace (k : ℕ) (s : Screened) : (batchTrace k s).map line = s.lines k := by
  unfold batchTrace Screened.lines
  cases s.excluded <;> rfl

/-! ### Sources and stores -/

/-- Whether a report comes from a source or a store. -/
def Event.isAside : Event → Bool
  | .lineSkipped _ | .batchCommitted .. | .storeOpened => true
  | _ => false

/-- The reports of a source are recognised as such. -/
def Source.IsDiscreet (σ : Type) [Source σ] : Prop :=
  ∀ (max : ℕ) (s : σ), ∀ e ∈ (Source.pull max s).events, e.isAside = true

/-- The reports of a store are recognised as such. -/
def Store.IsDiscreet (τ : Type) [Store τ] : Prop :=
  ∀ (batch : List Transfer) (s : τ), ∀ e ∈ (Store.commit batch s).events, e.isAside = true

namespace Lines

/-- The lines of text that are malformed are reported with their numbers, of which the first is
given. -/
def skips (first : ℕ) (consumed : List (List UInt8)) : List Event :=
  ((consumed.zipIdx first).filter fun (line, _) => (Reading.ofLine line).isMalformed).map
    fun (_, n) => .lineSkipped n

theorem skips_cons (first : ℕ) (line : List UInt8) (consumed : List (List UInt8)) :
    skips first (line :: consumed) =
      (if (Reading.ofLine line).isMalformed then [.lineSkipped first] else []) ++
        skips (first + 1) consumed := by
  cases h : (Reading.ofLine line).isMalformed <;> simp [skips, h]

theorem events_prepend (t : Transfer) (p : Pull Lines) : (prepend t p).events = p.events := by
  unfold prepend
  split <;> rfl

/-- Of the lines that a request consumes, it reports the malformed ones. -/
theorem events_pullFrom (max : ℕ) (pending : List (List UInt8)) (read skipped : ℕ) :
    let p := pullFrom max pending read skipped
    ∃ consumed, pending = consumed ++ p.source.pending ∧ p.events = skips (read + 1) consumed := by
  induction pending generalizing max read skipped with
  | nil => cases max <;> exact ⟨[], rfl, rfl⟩
  | cons line pending ih =>
    obtain _ | max := max
    · exact ⟨[], rfl, rfl⟩
    · cases hline : Reading.ofLine line with
      | undecodable fault =>
        refine ⟨[line], by simp [pullFrom, hline], ?_⟩
        simp [pullFrom, hline, skips, Reading.isMalformed]
      | blank =>
        obtain ⟨consumed, hpending, hevents⟩ := ih (max + 1) (read + 1) skipped
        simp only [pullFrom, hline]
        refine ⟨line :: consumed, congrArg (line :: ·) hpending, ?_⟩
        rw [hevents, skips_cons, hline]
        rfl
      | malformed fault =>
        obtain ⟨consumed, hpending, hevents⟩ := ih (max + 1) (read + 1) (skipped + 1)
        simp only [pullFrom, hline]
        refine ⟨line :: consumed, congrArg (line :: ·) hpending, ?_⟩
        rw [hevents, skips_cons, hline]
        rfl
      | transfer t =>
        obtain ⟨consumed, hpending, hevents⟩ := ih max (read + 1) skipped
        simp only [pullFrom, hline, prepend_source, events_prepend]
        refine ⟨line :: consumed, congrArg (line :: ·) hpending, ?_⟩
        rw [hevents, skips_cons, hline]
        rfl

/-- A request reports the lines that it skips. -/
theorem events_pull (max : ℕ) (s : Lines) :
    ∃ consumed, s.pending = consumed ++ (Source.pull max s).source.pending ∧
      (Source.pull max s).events = skips (s.read + 1) consumed :=
  events_pullFrom max s.pending s.read s.skipped

theorem isDiscreet : Source.IsDiscreet Lines := by
  intro max s e he
  obtain ⟨consumed, -, hevents⟩ := events_pull max s
  rw [hevents] at he
  obtain ⟨⟨line, n⟩, -, rfl⟩ := List.mem_map.1 he
  rfl

end Lines

theorem Pending.isDiscreet : Source.IsDiscreet Pending := fun _ _ _ he => absurd he List.not_mem_nil

theorem Script.isDiscreet : Source.IsDiscreet Script := by
  intro max s e he
  have hnone : (Source.pull max s).events = [] := by
    show (Script.pull max s).events = []
    unfold Script.pull
    split
    · rfl
    · split <;> rfl
  rw [hnone] at he
  cases he

theorem MemoryStore.isDiscreet : Store.IsDiscreet MemoryStore := by
  intro batch s e he
  have hnone : (Store.commit batch s).events = [] := by
    show (MemoryStore.commit batch s).events = []
    unfold MemoryStore.commit
    split
    · rfl
    · split <;> rfl
  rw [hnone] at he
  cases he

/-- A table reports a batch that it adds, with how many of its transfers were new. -/
theorem Table.events_commit (batch : List Transfer) (table : Table) :
    (commit batch table).events = match (commit batch table).result with
      | .ok n => if batch = [] then [] else [.batchCommitted batch.length n]
      | .error _ => [] := by
  cases batch with
  | nil => rfl
  | cons t ts =>
    simp only [commit, List.isEmpty_cons, Bool.false_eq_true, if_false, reduceCtorEq]
    cases insertAll { rows := table.rows } (t :: ts) <;> rfl

namespace Database

/-- A database reports a batch that is committed, and nothing else. -/
theorem events_commit (batch : List Transfer) (db : Database) :
    (commit batch db).events = match (commit batch db).result with
      | .ok n => if batch = [] then [] else [.batchCommitted batch.length n]
      | .error _ => [] := by
  have htable := Table.events_commit batch db.table
  cases hr : (db.table.commit batch).result with
  | error e =>
    rw [hr] at htable
    unfold commit
    split
    · rfl
    · simp only [hr, htable]
  | ok n =>
    rw [hr] at htable
    unfold commit
    split
    · rfl
    · obtain _ | n := n
      · simp only [hr, htable]
      · cases db.blocked <;> simp [hr, htable]

theorem isDiscreet : Store.IsDiscreet Database := by
  intro batch db e he
  change e ∈ (commit batch db).events at he
  rw [events_commit] at he
  split at he
  · split at he
    · cases he
    · rw [List.mem_singleton.1 he]
      rfl
  · cases he

end Database

end TransferLedger
