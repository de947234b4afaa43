import Mathlib.Tactic
import TransferLedger.Proofs.Conservation
import TransferLedger.Proofs.Division
import TransferLedger.Proofs.Reports

/-!
# The log of a run

* `Handled`, `Worker.handled`: the batches that are processed, with the reports of source and store;
* `Worker.turn_events_of_taken`, `Worker.turn_events_of_pause`: what a turn reports;
* `Worker.HasReported`, `Worker.hasReported_runFrom`: what a run reports that ends in order;
* `LogAccounts`, `runs_are_logged`: the log accounts for the run.
-/

namespace TransferLedger

open Event (line number)

/-- A batch that is processed, with what is reported when it is asked for, and when it is kept. -/
structure Handled where
  batch : List Transfer
  asked : List Event
  kept : List Event

namespace Worker

section Turns

variable {σ τ : Type} [Source σ] [Store τ] (w : Worker) (c : Conditions)

/-- The batches that up to a number of requests bring in turn, as the worker processes them. -/
def handled : ℕ → σ → τ → List Handled
  | 0, _, _ => []
  | n + 1, source, store =>
    let pull := Source.pull w.batchSize source
    match pull.supply with
    | .batch (t :: ts) =>
      let commit := w.commitBatch (t :: ts) store
      ⟨t :: ts, pull.events, commit.events⟩ :: handled n pull.source commit.store
    | _ => []

/-- What is reported while batch number `k` is processed. -/
def told (k : ℕ) (h : Handled) : List Event :=
  h.asked ++ w.guard.screenTrace h.batch ++ h.kept ++ batchTrace k (w.guard.screen h.batch)

theorem handled_succ_of_batch {n : ℕ} {source : σ} {store : τ} {batch : List Transfer}
    (h : (Source.pull w.batchSize source).supply = .batch batch) (hne : batch ≠ []) :
    w.handled (n + 1) source store =
      ⟨batch, (Source.pull w.batchSize source).events, (w.commitBatch batch store).events⟩ ::
        w.handled n (Source.pull w.batchSize source).source (w.commitBatch batch store).store := by
  obtain ⟨t, ts, rfl⟩ := List.exists_cons_of_ne_nil hne
  simp only [handled, h]

theorem map_batch_handled (n : ℕ) (source : σ) (store : τ) :
    (w.handled n source store).map Handled.batch = Source.handedOut w.batchSize n source := by
  induction n generalizing source store with
  | zero => rfl
  | succ n ih =>
    cases hs : (Source.pull w.batchSize source).supply with
    | batch batch => cases batch <;> simp [handled, Source.handedOut, hs, ih]
    | failed => simp [handled, Source.handedOut, hs]
    | stalled => simp [handled, Source.handedOut, hs]

/-! ### Turns -/

/-- What is reported of an end of a run, before the totals. -/
def stopTrace : Option Ending → List Event
  | some (.finished reason) => [.stopping reason]
  | _ => []

omit [Source σ] [Store τ] in
/-- Shutdown in the wait behind a batch is reported. -/
theorem wait_events (p : Progress σ τ) : (w.wait c p).events = stopTrace (w.wait c p).ending := by
  unfold wait
  split
  · rfl
  · dsimp only
    split
    · rfl
    · split <;> rfl

omit [Source σ] in
theorem process_events {p : Progress σ τ} {batch : List Transfer} {n : ℕ}
    (h : (w.commitBatch batch p.store).result = .ok n) :
    (w.process p batch).events =
      w.guard.screenTrace batch ++ (w.commitBatch batch p.store).events ++
        batchTrace (p.stats.batches + 1) (w.guard.screen batch) := by
  unfold commitBatch at h
  simp [process, h]

omit [Source σ] in
/-- A batch that is committed is reported, and then the shutdown in the wait behind it. -/
theorem receive_events_of_ok {p : Progress σ τ} {batch : List Transfer} (hne : batch ≠ []) {n : ℕ}
    (h : (w.commitBatch batch p.store).result = .ok n) :
    (w.receive c p (.batch batch)).events =
      w.guard.screenTrace batch ++ (w.commitBatch batch p.store).events ++
        batchTrace (p.stats.batches + 1) (w.guard.screen batch) ++
          stopTrace (w.receive c p (.batch batch)).ending := by
  obtain ⟨t, ts, rfl⟩ := List.exists_cons_of_ne_nil hne
  obtain ⟨hgoes, -⟩ := w.process_of_ok h
  rw [← w.process_events h, receive_cons, (Stretch.andThen_of_none hgoes).2, ← wait_events]
  simp only [Stretch.andThen, hgoes]

omit [Source σ] in
/-- What follows an answer ends a run in order in the wait behind a batch, or when there is none. -/
theorem receive_ending {p : Progress σ τ} {supply : Supply} {reason : StopReason}
    (h : (w.receive c p supply).ending = some (.finished reason)) :
    reason = .idle ∨ reason = .exhausted ∧ supply = .batch [] := by
  cases supply with
  | stalled => cases h
  | failed error => cases h
  | batch batch =>
    by_cases hne : batch = []
    · subst hne
      obtain rfl : reason = .exhausted := by simpa [receive, Stretch.stop] using h.symm
      exact .inr ⟨rfl, rfl⟩
    · cases hr : (w.commitBatch batch p.store).result with
      | error e =>
        rw [(w.receive_of_error c hne hr).1] at h
        cases h
      | ok n =>
        obtain ⟨-, -, -, -, q, -, hwait⟩ := w.receive_of_ok c hne hr
        rw [hwait] at h
        rcases (w.wait_spec c q).2.2.2.2 _ h with ⟨h, -⟩ | ⟨h, -⟩
        · exact .inl (Ending.finished.inj h)
        · cases h

/-- Shutdown before there is an answer is all that is reported of a turn. Otherwise a turn reports
what its request does, and what follows from the answer. -/
theorem turn_events (p : Progress σ τ) :
    (∃ q reason, w.turn c p = Stretch.stop q reason ∧ (reason = .beforeBatch ∨ reason = .waiting)) ∨
      (w.turn c p).ending = some .unfinished ∨
      (w.turn c p).events = (Source.pull w.batchSize p.source).events ++
          (w.receive c (w.heard p) (Source.pull w.batchSize p.source).supply).events ∧
        (w.turn c p).ending =
          (w.receive c (w.heard p) (Source.pull w.batchSize p.source).supply).ending := by
  unfold turn
  split
  · exact .inl ⟨_, _, rfl, .inl rfl⟩
  · dsimp only
    split
    · exact .inl ⟨_, _, rfl, .inr rfl⟩
    · split
      · exact .inr (.inr ⟨rfl, rfl⟩)
      · exact .inr (.inl rfl)

variable {w c}

/-- A turn that takes a batch reports it, and then the shutdown in the wait behind it. -/
theorem turn_events_of_taken {p : Progress σ τ} {batch : List Transfer} {n : ℕ}
    (supply : (Source.pull w.batchSize p.source).supply = .batch batch) (some_in : batch ≠ [])
    (commit : (w.commitBatch batch p.store).result = .ok n)
    (ending : ∀ e, (w.turn c p).ending = some e → e = .finished .idle) :
    (w.turn c p).events =
      w.told (p.stats.batches + 1) ⟨batch, (Source.pull w.batchSize p.source).events,
        (w.commitBatch batch p.store).events⟩ ++ stopTrace (w.turn c p).ending := by
  rcases w.turn_events c p with ⟨q, reason, hturn, hreason⟩ | hunfinished | ⟨hevents, hending⟩
  · obtain rfl : reason = .idle := by
      simpa using ending (.finished reason) (by rw [hturn]; rfl)
    rcases hreason with h | h <;> cases h
  · cases ending _ hunfinished
  · have hreport := w.receive_events_of_ok c (p := w.heard p) some_in commit
    rw [supply] at hevents hending
    rw [hevents, hreport, ← hending]
    simp only [told, List.append_assoc]
    rfl

/-- A turn that takes no batch and ends the run in order reports why, behind what the source has
reported if it is asked in vain. -/
theorem turn_events_of_pause {p : Progress σ τ} {reason : StopReason}
    (ending : (w.turn c p).ending = some (.finished reason)) (hidle : reason ≠ .idle) :
    (w.turn c p).events =
      (if reason = .exhausted then (Source.pull w.batchSize p.source).events else []) ++
        [.stopping reason] := by
  rcases w.turn_events c p with ⟨q, reason', hturn, hreason⟩ | hunfinished | ⟨hevents, hending⟩
  · rw [hturn] at ending ⊢
    obtain rfl : reason' = reason := by simpa [Stretch.stop] using ending
    rcases hreason with rfl | rfl <;> rfl
  · rw [hunfinished] at ending
    cases ending
  · rcases w.receive_ending c (hending.symm.trans ending) with h | ⟨rfl, hs⟩
    · exact absurd h hidle
    · rw [hevents, hs]
      rfl

/-! ### Runs -/

theorem runFrom_events_of_some (turns : ℕ) {p : Progress σ τ} {e : Ending}
    (h : (w.turn c p).ending = some e) : (w.runFrom c (turns + 1) p).events =
      (w.turn c p).events ++ closing e (w.turn c p).progress.stats := by
  simp [runFrom, h]

theorem runFrom_events_of_none (turns : ℕ) {p : Progress σ τ} (h : (w.turn c p).ending = none) :
    (w.runFrom c (turns + 1) p).events =
      (w.turn c p).events ++ (w.runFrom c turns (w.turn c p).progress).events := by
  simp [runFrom, h]

/-- What the source reports behind some batches, if the run ends because it has no more. -/
def lastAsked (w : Worker) (reason : StopReason) (n : ℕ) (source : σ) : List Event :=
  if reason = .exhausted then
    (Source.pull w.batchSize (Source.behind w.batchSize n source)).events
  else []

/-- A run from `p` that ends in order at `r` has processed a number of batches and reported these
events: of each batch with its number, then why it ends, and its totals. -/
structure HasReported (w : Worker) (p r : Progress σ τ) (reason : StopReason) (n : ℕ)
    (events : List Event) : Prop where
  batches : r.stats.batches = p.stats.batches + n
  all : (w.handled n p.source p.store).length = n
  events_eq : events =
    ((w.handled n p.source p.store).zipIdx (p.stats.batches + 1)).flatMap
        (fun (h, k) => w.told k h) ++
      (w.lastAsked reason n p.source ++ [.stopping reason, .workerStopped r.stats])

/-- A run that processes no batch. -/
theorem HasReported.rest {p r : Progress σ τ} {reason : StopReason}
    (stats : r.stats.batches = p.stats.batches) :
    w.HasReported p r reason 0
      (w.lastAsked reason 0 p.source ++ [.stopping reason, .workerStopped r.stats]) where
  batches := stats
  all := rfl
  events_eq := rfl

/-- One more batch comes in front. -/
theorem HasReported.taken {p q r : Progress σ τ} {reason : StopReason} {n : ℕ} {events : List Event}
    {batch : List Transfer} (h : w.HasReported q r reason n events)
    (supply : (Source.pull w.batchSize p.source).supply = .batch batch) (some_in : batch ≠ [])
    (source : q.source = (Source.pull w.batchSize p.source).source)
    (store : q.store = (w.commitBatch batch p.store).store)
    (stats : q.stats.batches = p.stats.batches + 1) :
    w.HasReported p r reason (n + 1)
      (w.told (p.stats.batches + 1) ⟨batch, (Source.pull w.batchSize p.source).events,
        (w.commitBatch batch p.store).events⟩ ++ events) := by
  have hhandled : w.handled (n + 1) p.source p.store =
      ⟨batch, (Source.pull w.batchSize p.source).events, (w.commitBatch batch p.store).events⟩ ::
        w.handled n q.source q.store := by
    rw [source, store, w.handled_succ_of_batch supply some_in]
  have hlast : w.lastAsked reason (n + 1) p.source = w.lastAsked reason n q.source := by
    rw [lastAsked, lastAsked, Source.behind, source]
  constructor
  · rw [h.batches, stats]
    omega
  · rw [hhandled, List.length_cons, h.all]
  · rw [h.events_eq, hhandled, hlast, stats, List.zipIdx_cons, List.flatMap_cons,
      List.append_assoc]

/-- A run that ends in order has reported its batches. -/
theorem hasReported_runFrom {reason : StopReason} (turns : ℕ) {p : Progress σ τ}
    (hend : (w.runFrom c turns p).ending = .finished reason) :
    ∃ n, w.HasReported p (w.runFrom c turns p).progress reason n (w.runFrom c turns p).events := by
  -- The induction is over the turns, and each but the last adds one batch in front.
  induction turns generalizing p with
  | zero => cases hend
  | succ turns ih =>
    cases w.took_turn c p with
    | rest ending cause _ stats =>
      obtain ⟨h1, h2⟩ := w.runFrom_succ_of_some c turns ending
      rw [h2] at hend
      subst hend
      have hidle : reason ≠ .idle := by
        cases cause with
        | halted _ _ when_asked => split at when_asked <;> simp [when_asked]
        | exhausted => simp
      rw [runFrom_events_of_some turns ending, turn_events_of_pause ending hidle, h1,
        List.append_assoc]
      exact ⟨0, .rest (by rw [stats])⟩
    | refused _ _ ending =>
      rw [(w.runFrom_succ_of_some c turns ending).2] at hend
      cases hend
    | taken supply some_in commit ending source store stats _ =>
      have hidle : ∀ e, (w.turn c p).ending = some e → e = .finished .idle := by
        intro e he
        rcases ending e he with ⟨h, -⟩ | ⟨rfl, -⟩
        · exact h
        · rw [(w.runFrom_succ_of_some c turns he).2] at hend
          cases hend
      have hevents := turn_events_of_taken supply some_in commit hidle
      have hbatches := congrArg Stats.batches stats
      cases he : (w.turn c p).ending with
      | some e =>
        obtain ⟨h1, h2⟩ := w.runFrom_succ_of_some c turns he
        rw [h2, hidle e he] at hend
        obtain rfl := Ending.finished.inj hend
        have hrest : w.HasReported (w.turn c p).progress (w.turn c p).progress .idle 0 _ :=
          .rest rfl
        refine ⟨1, ?_⟩
        rw [runFrom_events_of_some turns he, hevents, he, hidle e he, h1, List.append_assoc]
        exact hrest.taken supply some_in source store hbatches
      | none =>
        obtain ⟨h1, h2⟩ := w.runFrom_succ_of_none c turns he
        rw [h2] at hend
        obtain ⟨n, hn⟩ := ih hend
        refine ⟨n + 1, ?_⟩
        rw [runFrom_events_of_none turns he, hevents, he, h1]
        simpa [stopTrace] using hn.taken supply some_in source store hbatches

end Turns

end Worker

/-! ### The log -/

/-- The line at the start of a run. -/
def startLine (batchSize : ℕ) : LogLine where
  level := .info
  message := "Commit worker started"
  fields := [("batch_size", number batchSize), ("precision", number 78)]

/-- The line about why a run ends. -/
def StopReason.line (reason : StopReason) : LogLine := ⟨.info, reason.message, []⟩

/-- The line with the totals. -/
def Stats.line (s : Stats) : LogLine where
  level := .info
  message := "Commit worker stopped"
  fields :=
    [("batches", number s.batches), ("received", number s.received),
      ("committed", number s.committed), ("excluded", number s.excluded),
      ("duplicates", number s.duplicates)]

/-- The lines about batch number `k`: of the source, of the screening, of the store, and of the
batch as a whole. -/
def Handled.lines (k : ℕ) (h : Handled) : List LogLine :=
  let screened := Guard.numeric.screen h.batch
  h.asked.map line ++ screened.excluded.flatMap Excluded.lines ++ h.kept.map line ++
    screened.lines k

/-- The lines about some batches, numbered from the first, without those of source and store. -/
def ownLines (first : ℕ) (batches : List (List Transfer)) : List LogLine :=
  (batches.zipIdx first).flatMap fun (batch, k) =>
    let screened := Guard.numeric.screen batch
    screened.excluded.flatMap Excluded.lines ++ screened.lines k

theorem Worker.lines_told {w : Worker} (hw : w.guard = Guard.numeric) (k : ℕ) (h : Handled) :
    (w.told k h).map line = h.lines k := by
  simp only [told, hw, List.map_append, Guard.lines_screenTrace, lines_batchTrace, Handled.lines]

/-! ### The worker's own lines -/

/-- What source and store report about a batch is recognised as theirs. -/
def Handled.IsDiscreet (h : Handled) : Prop :=
  (∀ e ∈ h.asked, e.isAside = true) ∧ ∀ e ∈ h.kept, e.isAside = true

/-- Nothing is left of reports that are all set aside. -/
theorem filter_eq_nil_of_isAside {events : List Event} (h : ∀ e ∈ events, e.isAside = true) :
    events.filter (fun e => !e.isAside) = [] := by
  simpa [List.filter_eq_nil_iff] using h

theorem Guard.filter_screenTrace (batch : List Transfer) :
    (numeric.screenTrace batch).filter (fun e => !e.isAside) = numeric.screenTrace batch := by
  rw [List.filter_eq_self]
  intro e he
  obtain ⟨t, -, ht⟩ := List.mem_flatMap.1 he
  rcases List.mem_append.1 ht with ht | ht
  · split at ht
    · obtain ⟨why, -, rfl⟩ := List.mem_map.1 ht
      rfl
    · cases ht
  · obtain ⟨why, -, rfl⟩ := List.mem_map.1 ht
    rfl

namespace Worker

variable {σ τ : Type} [Source σ] [Store τ] {w : Worker} {c : Conditions}

omit [Source σ] in
theorem isAside_of_mem_commitBatch (hτ : Store.IsDiscreet τ) (batch : List Transfer) (store : τ) :
    ∀ e ∈ (w.commitBatch batch store).events, e.isAside = true := by
  by_cases h : (w.guard.screen batch).accepted = []
  · rw [commitBatch_of_accepted_nil h]
    simp
  · rw [commitBatch_of_accepted_ne_nil h]
    exact hτ _ _

theorem isDiscreet_handled (hσ : Source.IsDiscreet σ) (hτ : Store.IsDiscreet τ) (n : ℕ) (source : σ)
    (store : τ) : ∀ h ∈ w.handled n source store, h.IsDiscreet := by
  induction n generalizing source store with
  | zero => simp [handled]
  | succ n ih =>
    rw [handled]
    dsimp only
    split
    · rw [List.forall_mem_cons]
      exact ⟨⟨hσ _ _, isAside_of_mem_commitBatch hτ _ _⟩, ih _ _⟩
    · simp

omit [Source σ] [Store τ] in
theorem ownLines_of_told (hw : w.guard = Guard.numeric) {hs : List Handled}
    (h : ∀ h ∈ hs, h.IsDiscreet) (first : ℕ) :
    (((hs.zipIdx first).flatMap fun (h, k) => w.told k h).filter fun e => !e.isAside).map line =
      ownLines first (hs.map Handled.batch) := by
  induction hs generalizing first with
  | nil => rfl
  | cons x hs ih =>
    obtain ⟨⟨hasked, hkept⟩, hrest⟩ := List.forall_mem_cons.1 h
    have htrace : ∀ s, (batchTrace first s).filter (fun e => !e.isAside) = batchTrace first s := by
      intro s
      unfold batchTrace
      split <;> rfl
    rw [List.zipIdx_cons, List.flatMap_cons, List.filter_append, List.map_append, ih hrest]
    simp only [told, hw, List.filter_append, filter_eq_nil_of_isAside hasked,
      filter_eq_nil_of_isAside hkept, Guard.filter_screenTrace, htrace, List.nil_append,
      List.append_nil, List.map_append, Guard.lines_screenTrace, lines_batchTrace]
    rfl

theorem isAside_of_mem_lastAsked (hσ : Source.IsDiscreet σ) (reason : StopReason) (n : ℕ)
    (source : σ) : ∀ e ∈ w.lastAsked reason n source, e.isAside = true := by
  unfold lastAsked
  split
  · exact hσ _ _
  · simp

end Worker

/-! ### Exclusions -/

/-- Whether a line is about an exclusion. -/
def LogLine.isExclusion (l : LogLine) : Bool := l.message == "Excluding transfer from commit"

theorem Excluded.filter_lines (e : Excluded) : e.lines.filter LogLine.isExclusion = [e.line] := by
  obtain ⟨t, _ | _⟩ := e <;> simp [lines, LogLine.isExclusion, line]

theorem Screened.filter_lines (k : ℕ) (s : Screened) :
    (s.lines k).filter LogLine.isExclusion = [] := by
  unfold lines
  split <;> simp [LogLine.isExclusion]

/-- Among the worker's own lines, those about exclusions tell of each transfer that is excluded. -/
theorem filter_ownLines (first : ℕ) (batches : List (List Transfer)) :
    (ownLines first batches).filter LogLine.isExclusion =
      (batches.flatMap fun b => (Guard.numeric.screen b).excluded).map Excluded.line := by
  induction batches generalizing first with
  | nil => rfl
  | cons batch batches ih =>
    have hlines : ∀ es : List Excluded,
        (es.flatMap Excluded.lines).filter LogLine.isExclusion = es.map Excluded.line := by
      intro es
      rw [List.filter_flatMap, List.map_eq_flatMap]
      simp only [Excluded.filter_lines]
    have hcons : ownLines first (batch :: batches) =
        (Guard.numeric.screen batch).excluded.flatMap Excluded.lines ++
          (Guard.numeric.screen batch).lines first ++ ownLines (first + 1) batches := by
      simp [ownLines]
    rw [hcons, List.filter_append, List.filter_append, hlines, Screened.filter_lines, ih,
      List.append_nil, List.flatMap_cons, List.map_append]

/-- No report of a source or a store is about an exclusion. -/
theorem filter_isExclusion_of_filter (events : List Event) :
    (events.map line).filter LogLine.isExclusion =
      ((events.filter fun e => !e.isAside).map line).filter LogLine.isExclusion := by
  induction events with
  | nil => rfl
  | cons e events ih =>
    cases ha : e.isAside with
    | false => simp only [List.map_cons, List.filter_cons, ha, ih, Bool.not_false, if_true]
    | true =>
      have hother : (line e).isExclusion = false := by
        cases e with
        | lineSkipped | batchCommitted | storeOpened => rfl
        | _ => cases ha
      simp [ha, ih, hother]

/-! ### Every run -/

/-- Whatever the source, the store, the size of batches, the waits and the moment of shutdown are,
the log of a run that ends in order tells of each batch in turn, with its number, then why the run
ends, and then the totals. What source and store report has its place among these lines; without
it, and if nothing else is reported by them, there is one line for each transfer that is excluded,
and so many are counted. -/
def LogAccounts (σ τ : Type) [Source σ] [Store τ] : Prop :=
  ∀ (batchSize pollInterval : ℕ) (c : Conditions) (turns : ℕ) (source : σ) (store : τ)
    (reason : StopReason),
    let w : Worker := { batchSize, pollInterval }
    let run := w.runFor c turns source store
    let stats := run.progress.stats
    let batches := Source.handedOut batchSize stats.batches source
    let handled := w.handled stats.batches source store
    let excluded := batches.flatMap fun b => (Guard.numeric.screen b).excluded
    run.ending = .finished reason →
      (batches.length = stats.batches ∧ (∀ b ∈ batches, b ≠ []) ∧
        handled.map Handled.batch = batches) ∧
      run.events.map line =
        startLine batchSize :: ((handled.zipIdx 1).flatMap (fun (h, k) => h.lines k) ++
          ((w.lastAsked reason stats.batches source).map line ++ [reason.line, stats.line])) ∧
      excluded.map Excluded.transfer = batches.flatten.filter (fun t => ¬t.IsStorable) ∧
      excluded.length = stats.excluded ∧
      (Source.IsDiscreet σ → Store.IsDiscreet τ →
        (run.events.filter fun e => !e.isAside).map line =
          startLine batchSize :: (ownLines 1 batches ++ [reason.line, stats.line]) ∧
        (run.events.map line).filter LogLine.isExclusion = excluded.map Excluded.line)

/-- What is excluded of a batch is what cannot be stored, in its order. -/
theorem Guard.transfers_excluded (batch : List Transfer) :
    (numeric.screen batch).excluded.map Excluded.transfer =
      batch.filter fun t => ¬t.IsStorable := by
  simpa only [passes_numeric_iff] using (numeric.isDivision_screen batch).eq_filter.2

theorem logAccounts (σ τ : Type) [Source σ] [Store τ] : LogAccounts σ τ := by
  intro batchSize pollInterval c turns source store reason w run stats batches handled excluded hend
  have hw : w.guard = Guard.numeric := rfl
  obtain ⟨n, hn, hlength, hevents⟩ :=
    Worker.hasReported_runFrom (w := w) (c := c) (p := { source, store }) turns hend
  obtain rfl : n = stats.batches := (Nat.zero_add n).symm.trans hn.symm
  change handled.length = stats.batches at hlength
  have hrun : run.events = .workerStarted batchSize Numeric.precision ::
      ((handled.zipIdx 1).flatMap (fun (h, k) => w.told k h) ++
        (w.lastAsked reason stats.batches source ++
          [.stopping reason, .workerStopped stats])) := congrArg (_ :: ·) hevents
  have hhandled : handled.map Handled.batch = batches := w.map_batch_handled _ _ _
  obtain ⟨batches', counts, hfinished⟩ :=
    Worker.hasFinished_runFrom (w := w) (c := c) (p := { source, store }) turns hend
  have hstats : stats = w.totals batches' counts := hfinished.stats.trans (Stats.empty_add _)
  obtain rfl : batches = batches' := by
    have hbatches : stats.batches = batches'.length := by rw [hstats]; rfl
    rw [← hfinished.handed, ← hbatches]
  refine ⟨⟨?_, fun b hb => Source.ne_nil_of_mem_handedOut hb, hhandled⟩, ?_, ?_, ?_, ?_⟩
  · rw [← hhandled, List.length_map, hlength]
  · simp only [hrun, List.map_cons, List.map_append, List.map_flatMap, Worker.lines_told hw]
    rfl
  · rw [List.map_flatMap, List.filter_flatten, List.flatMap_def]
    simp only [Guard.transfers_excluded]
  · rw [hstats, List.length_flatMap]
    rfl
  · intro hσ hτ
    have hown : (run.events.filter fun e => !e.isAside).map line =
        startLine batchSize :: (ownLines 1 batches ++ [reason.line, stats.line]) := by
      have hdiscreet := Worker.isDiscreet_handled (w := w) hσ hτ stats.batches source store
      have hlast := Worker.isAside_of_mem_lastAsked (w := w) hσ reason stats.batches source
      rw [hrun, ← hhandled, ← Worker.ownLines_of_told hw hdiscreet,
        List.filter_cons_of_pos rfl, List.map_cons]
      simp only [List.filter_append, filter_eq_nil_of_isAside hlast, List.map_append]
      rfl
    have hends : [reason.line, stats.line].filter LogLine.isExclusion = [] := by
      cases reason <;> rfl
    refine ⟨hown, ?_⟩
    rw [filter_isExclusion_of_filter, hown]
    change (ownLines 1 batches ++ [reason.line, stats.line]).filter LogLine.isExclusion = _
    rw [List.filter_append, filter_ownLines, hends, List.append_nil]

/-- **The log is the account of a run.** With any source and any store, the log of a run that ends
in order accounts for it. The sources and stores of this library report nothing that may be taken
for a line of the worker: a database reports what it has committed, once for each batch of which
anything was accepted, and a source of lines reports each malformed one. -/
theorem runs_are_logged :
    (∀ (σ τ : Type) [Source σ] [Store τ], LogAccounts σ τ) ∧
      (Source.IsDiscreet Lines ∧ Source.IsDiscreet Pending ∧ Source.IsDiscreet Script ∧
        Store.IsDiscreet MemoryStore ∧ Store.IsDiscreet Database) ∧
      (∀ (screened : Screened) (db : Database) (n : ℕ),
        (Worker.commitAccepted screened db).result = .ok n →
          (Worker.commitAccepted screened db).events.map line =
            if screened.accepted = [] then []
            else [⟨.debug, "Committed transfer batch",
              [("submitted", number screened.accepted.length), ("inserted", number n)]⟩]) ∧
      ∀ (max : ℕ) (s : Lines), ∃ consumed,
        s.pending = consumed ++ (Source.pull max s).source.pending ∧
          (Source.pull max s).events.map line =
            ((consumed.zipIdx (s.read + 1)).filter fun (l, _) =>
              (Reading.ofLine l).isMalformed).map fun (_, n) =>
                ⟨.warn, "Skipping malformed transfer record", [("line", number n)]⟩ := by
  refine ⟨logAccounts, ⟨Lines.isDiscreet, Pending.isDiscreet, Script.isDiscreet,
    MemoryStore.isDiscreet, Database.isDiscreet⟩, ?_, ?_⟩
  · intro screened db n h
    unfold Worker.commitAccepted at h ⊢
    by_cases hnil : screened.accepted = []
    · simp [hnil]
    · have hne : screened.accepted.isEmpty = false := by simpa using hnil
      simp only [hne, Bool.false_eq_true, if_false] at h ⊢
      rw [show (Store.commit screened.accepted db).events = _ from Database.events_commit _ db,
        show (Database.commit screened.accepted db).result = _ from h]
      simp only [hnil, if_false]
      rfl
  · intro max s
    obtain ⟨consumed, hpending, hevents⟩ := Lines.events_pull max s
    refine ⟨consumed, hpending, ?_⟩
    rw [hevents, Lines.skips, List.map_map]
    rfl

/-- The lines of four transfers and a malformed one. The amount of the second transfer is negative,
and the log index of the third is too large. -/
def reportedText : List Char :=
  [(sampleTransfer 1 5).toJson, "none".toList, (sampleTransfer 2 (-6)).toJson,
    (sampleTransfer (.ofNat (storedMax + 1)) 7).toJson,
    (sampleTransfer 4 8).toJson].flatMap (· ++ ['\n'])

/-- Shutdown comes in the wait behind the second batch. -/
theorem runs_are_logged_on_sample :
    let w : Worker := { batchSize := 2, pollInterval := 100 }
    let c : Conditions := { shutdown := [(150, .fire)] }
    let run := w.runFor c 3 (Lines.ofBytes (Text.Utf8.encode reportedText)) ({} : Database)
    let negative : Excluded := ⟨sampleTransfer 2 (-6), .amount .negative⟩
    let large : Excluded :=
      ⟨sampleTransfer (.ofNat (storedMax + 1)) 7, .integer .logIndex (.ofNat (storedMax + 1))⟩
    run.ending = .finished .idle ∧
      run.progress.stats =
        { batches := 2, received := 4, committed := 2, excluded := 2, duplicates := 0 } ∧
      (run.events.map line).filter LogLine.isExclusion = [negative.line, large.line] ∧
      run.events.map line =
        [startLine 2, ⟨.warn, "Skipping malformed transfer record", [("line", "2")]⟩,
          ⟨.debug, "Amount rejected by guard", [("amount", "-6"), ("reason", "Negative amount")]⟩,
          negative.line,
          ⟨.debug, "Committed transfer batch", [("submitted", "1"), ("inserted", "1")]⟩,
          ⟨.warn, "Batch committed without out-of-range transfers",
            [("batch", "1"), ("excluded", "1")]⟩,
          ⟨.debug, "Batch processed", [("batch", "1"), ("accepted", "1")]⟩,
          large.line,
          ⟨.debug, "Committed transfer batch", [("submitted", "1"), ("inserted", "1")]⟩,
          ⟨.warn, "Batch committed without out-of-range transfers",
            [("batch", "2"), ("excluded", "1")]⟩,
          ⟨.debug, "Batch processed", [("batch", "2"), ("accepted", "1")]⟩,
          StopReason.idle.line, run.progress.stats.line] := by
  intro w c run negative large
  have hending : run.ending = .finished .idle := by decide +kernel
  obtain ⟨hall, ⟨hlines, -, -, -, hdatabase⟩, -, -⟩ := runs_are_logged
  obtain ⟨-, hlog, -, -, hown⟩ := hall Lines Database 2 100 c 3
    (Lines.ofBytes (Text.Utf8.encode reportedText)) {} .idle hending
  obtain ⟨-, hexclusions⟩ := hown hlines hdatabase
  refine ⟨hending, by decide +kernel, hexclusions.trans ?_, hlog.trans ?_⟩
  · decide +kernel
  · decide +kernel

end TransferLedger
