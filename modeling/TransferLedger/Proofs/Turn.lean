import Mathlib.Tactic
import TransferLedger.Proofs.Signals

/-!
# What a turn of the worker can do

A turn of the worker leaves stats and store alone and ends the run, or it takes a batch whose
commit fails, which ends the run as well, or it takes a batch, commits it and counts it.

* `Stats.count`: the totals with one more batch;
* `Worker.Pause`: why a turn may take no batch;
* `Worker.Took`, `Worker.took_turn`: the three outcomes of a turn;
* `Worker.runFrom_invariant`: what is kept whenever a batch is taken holds at the end of every
  run, and a store that refuses no batch does not end one;
* `Conditions.IsUndisturbed`, `Conditions.IsQuietUntil`: no shutdown at all, or none up to a time;
* `Worker.turn_of_commit`, `Worker.turn_of_refusal`, `Worker.turn_of_failure`,
  `Worker.turn_of_exhausted`: before shutdown a turn takes the answer of the source as it comes.
-/

namespace TransferLedger

/-- The totals with one more batch, of which some transfers were new. -/
def Stats.count (s : Stats) (received : ℕ) (screened : Screened) (inserted : ℕ) : Stats where
  batches := s.batches + 1
  received := s.received + received
  committed := s.committed + inserted
  excluded := s.excluded + screened.excluded.length
  duplicates := s.duplicates + (screened.accepted.length - inserted)

/-! ### The parts of a turn -/

section Arrival

variable {σ : Type} {pull : Pull σ}

theorem Pull.arrival_of_ne_stalled (h : pull.supply ≠ .stalled) (time : ℕ) :
    pull.arrival time = some (time + pull.delay) := by
  unfold arrival
  split
  · exact absurd ‹_› h
  · rfl

/-- No answer comes before it is asked for. -/
theorem Pull.le_of_arrival_eq_some {time a : ℕ} (h : pull.arrival time = some a) : time ≤ a := by
  unfold arrival at h
  split at h
  · cases h
  · exact Option.some.inj h ▸ Nat.le_add_right _ _

end Arrival

section Stretch

variable {σ τ : Type} {s : Stretch σ τ} {n : Progress σ τ → Stretch σ τ}

theorem Stretch.andThen_of_none (h : s.ending = none) :
    (s.andThen n).progress = (n s.progress).progress ∧
      (s.andThen n).ending = (n s.progress).ending := by
  simp [Stretch.andThen, h]

theorem Stretch.andThen_of_some {e : Ending} (h : s.ending = some e) : s.andThen n = s := by
  simp [Stretch.andThen, h]

end Stretch

namespace Worker

variable {σ τ : Type} [Store τ] (w : Worker) (c : Conditions)

/-- Commits what the worker's rule accepts of a batch. -/
abbrev commitBatch (batch : List Transfer) (store : τ) : Commit τ :=
  commitAccepted (w.guard.screen batch) store

variable {w} in
/-- Nothing is committed of a batch of which nothing is accepted. -/
theorem commitBatch_of_accepted_nil {batch : List Transfer}
    (h : (w.guard.screen batch).accepted = []) (store : τ) :
    w.commitBatch batch store = { result := .ok 0, store } := by
  rw [commitBatch, commitAccepted, h]
  rfl

variable {w} in
theorem commitBatch_of_accepted_ne_nil {batch : List Transfer}
    (h : (w.guard.screen batch).accepted ≠ []) (store : τ) :
    w.commitBatch batch store = Store.commit (w.guard.screen batch).accepted store := by
  rw [commitBatch, commitAccepted, if_neg (by simpa using h)]

variable {w} in
/-- A batch that is refused has transfers in it. -/
theorem ne_nil_of_commitBatch_error {batch : List Transfer} {store : τ} {e : StoreError}
    (h : (w.commitBatch batch store).result = .error e) : batch ≠ [] := by
  rintro rfl
  cases h

omit [Store τ] in
/-- Only the time passes in the wait behind a batch, and only shutdown ends a run there, no later
than the wait would end, or the end of the time that is watched. -/
theorem wait_spec (p : Progress σ τ) :
    (w.wait c p).progress.source = p.source ∧ (w.wait c p).progress.store = p.store ∧
      (w.wait c p).progress.stats = p.stats ∧
      ((w.wait c p).ending = none → (w.wait c p).progress.time = p.time + w.pollInterval) ∧
      ∀ e, (w.wait c p).ending = some e →
        (e = .finished .idle ∧ ∃ t, c.shutdown.firesAt = some t ∧ t ≤ p.time + w.pollInterval) ∨
          e = .unfinished ∧ c.horizon ≠ none := by
  unfold wait
  split
  · rename_i hpoll
    simp [hpoll]
  · dsimp only
    split
    · rename_i t hi
      obtain ⟨hfires, hle⟩ := Conditions.of_interruption_eq_some hi
      simp [Stretch.stop, hfires, hle _ rfl]
    · split
      · simp
      · rename_i hcovers
        have hhorizon : c.horizon ≠ none := fun h => hcovers (by simp [Conditions.covers, h])
        simp [hhorizon]

theorem process_of_error {p : Progress σ τ} {batch : List Transfer} {e : StoreError}
    (h : (w.commitBatch batch p.store).result = .error e) :
    (w.process p batch).ending = some (.failed (.store e)) ∧
      (w.process p batch).progress.source = p.source ∧
      (w.process p batch).progress.store = (w.commitBatch batch p.store).store := by
  unfold commitBatch at h
  simp [process, h]

theorem process_of_ok {p : Progress σ τ} {batch : List Transfer} {n : ℕ}
    (h : (w.commitBatch batch p.store).result = .ok n) :
    (w.process p batch).ending = none ∧
      (w.process p batch).progress =
        { p with
          store := (w.commitBatch batch p.store).store
          time := p.time + (w.commitBatch batch p.store).delay
          stats := p.stats.count batch.length (w.guard.screen batch) n } := by
  unfold commitBatch at h
  simp [process, h, Stats.count]

theorem receive_cons (p : Progress σ τ) (t : Transfer) (ts : List Transfer) :
    w.receive c p (.batch (t :: ts)) = (w.process p (t :: ts)).andThen (w.wait c) := rfl

/-- A batch that is refused ends the run. -/
theorem receive_of_error {p : Progress σ τ} {batch : List Transfer} (hne : batch ≠ [])
    {e : StoreError} (h : (w.commitBatch batch p.store).result = .error e) :
    (w.receive c p (.batch batch)).ending = some (.failed (.store e)) ∧
      (w.receive c p (.batch batch)).progress.source = p.source ∧
      (w.receive c p (.batch batch)).progress.store = (w.commitBatch batch p.store).store := by
  obtain ⟨t, ts, rfl⟩ := List.exists_cons_of_ne_nil hne
  obtain ⟨he, hsource, hstore⟩ := w.process_of_error h
  rw [receive_cons, Stretch.andThen_of_some he]
  exact ⟨he, hsource, hstore⟩

/-- A batch that is committed is counted, and only the wait behind it may end the run. -/
theorem receive_of_ok {p : Progress σ τ} {batch : List Transfer} (hne : batch ≠ []) {n : ℕ}
    (h : (w.commitBatch batch p.store).result = .ok n) :
    (w.receive c p (.batch batch)).progress.source = p.source ∧
      (w.receive c p (.batch batch)).progress.store = (w.commitBatch batch p.store).store ∧
      (w.receive c p (.batch batch)).progress.stats =
        p.stats.count batch.length (w.guard.screen batch) n ∧
      ((w.receive c p (.batch batch)).ending = none →
        (w.receive c p (.batch batch)).progress.time =
          p.time + (w.commitBatch batch p.store).delay + w.pollInterval) ∧
      ∃ q, q.time = p.time + (w.commitBatch batch p.store).delay ∧
        (w.receive c p (.batch batch)).ending = (w.wait c q : Stretch σ τ).ending := by
  obtain ⟨t, ts, rfl⟩ := List.exists_cons_of_ne_nil hne
  obtain ⟨he, hp⟩ := w.process_of_ok h
  obtain ⟨hprogress, hending⟩ := Stretch.andThen_of_none he (n := w.wait c)
  obtain ⟨hsource, hstore, hstats, htime, -⟩ := w.wait_spec c (w.process p (t :: ts)).progress
  rw [hp] at hsource hstore hstats htime
  rw [receive_cons, hprogress, hending, hp]
  exact ⟨hsource, hstore, hstats, htime, _, rfl, rfl⟩

/-! ### Turns -/

variable [Source σ]

/-- Where a run from `p` stands when it hears the answer to its next request. -/
def heard (p : Progress σ τ) : Progress σ τ :=
  { p with
    source := (Source.pull w.batchSize p.source).source
    time := p.time + (Source.pull w.batchSize p.source).delay }

/-- The answer to the request that is made at `p` arrives before shutdown is requested. -/
def IsHeard (p : Progress σ τ) : Prop :=
  ∀ t, c.shutdown.firesAt = some t → p.time + (Source.pull w.batchSize p.source).delay < t

/-- Why a turn from `p` takes no batch and ends the run at `r`. -/
inductive Pause (p r : Progress σ τ) : Ending → Prop
  /-- Shutdown is requested before there is an answer, which is not waited for. -/
  | halted {reason : StopReason} {t : ℕ} (fires : c.shutdown.firesAt = some t)
      (late : ∀ a, (Source.pull w.batchSize p.source).arrival p.time = some a → t ≤ a)
      (when_asked : reason = if c.isTriggered p.time then .beforeBatch else .waiting)
      (source : r.source = p.source) : Pause p r (.finished reason)
  | exhausted (supply : (Source.pull w.batchSize p.source).supply = .batch [])
      (early : w.IsHeard c p) (source : r.source = (Source.pull w.batchSize p.source).source) :
      Pause p r (.finished .exhausted)
  | failed {error : SourceError}
      (supply : (Source.pull w.batchSize p.source).supply = .failed error)
      (source : r.source = (Source.pull w.batchSize p.source).source) :
      Pause p r (.failed (.source error))
  /-- There is no answer while the run is watched. -/
  | unanswered (cause : c.horizon = none →
      (Source.pull w.batchSize p.source).supply = .stalled ∧ c.shutdown.firesAt = none) :
      Pause p r .unfinished

omit [Store τ] in
/-- The store has no part in it. -/
theorem Pause.ne_store {p r : Progress σ τ} {e : Ending} (h : w.Pause c p r e)
    (error : StoreError) : e ≠ .failed (.store error) := by
  cases h <;> simp

/-- What a turn from `p` can come to. -/
inductive Took (p : Progress σ τ) : Stretch σ τ → Prop
  /-- No batch is processed, and the run ends. -/
  | rest {s : Stretch σ τ} {e : Ending} (ending : s.ending = some e)
      (cause : w.Pause c p s.progress e) (store : s.progress.store = p.store)
      (stats : s.progress.stats = p.stats) : Took p s
  /-- A batch is not committed, and the run fails. -/
  | refused {s : Stretch σ τ} {batch : List Transfer} {error : StoreError}
      (supply : (Source.pull w.batchSize p.source).supply = .batch batch)
      (commit : (w.commitBatch batch p.store).result = .error error)
      (ending : s.ending = some (.failed (.store error)))
      (source : s.progress.source = (Source.pull w.batchSize p.source).source)
      (store : s.progress.store = (w.commitBatch batch p.store).store) : Took p s
  /-- A batch is committed and counted, and the run goes on, unless it is ended in the wait behind
  the batch. -/
  | taken {s : Stretch σ τ} {batch : List Transfer} {n : ℕ}
      (supply : (Source.pull w.batchSize p.source).supply = .batch batch) (some_in : batch ≠ [])
      (commit : (w.commitBatch batch p.store).result = .ok n)
      (ending : ∀ e, s.ending = some e →
        (e = .finished .idle ∧ ∃ t, c.shutdown.firesAt = some t ∧
          t ≤ p.time + (Source.pull w.batchSize p.source).delay +
            (w.commitBatch batch p.store).delay + w.pollInterval) ∨
        e = .unfinished ∧ c.horizon ≠ none)
      (source : s.progress.source = (Source.pull w.batchSize p.source).source)
      (store : s.progress.store = (w.commitBatch batch p.store).store)
      (stats : s.progress.stats = p.stats.count batch.length (w.guard.screen batch) n)
      (time : s.ending = none → s.progress.time =
        p.time + (Source.pull w.batchSize p.source).delay + (w.commitBatch batch p.store).delay +
          w.pollInterval)
      (early : w.IsHeard c p) : Took p s

/-- What follows the answer to a request that has arrived. -/
theorem took_receive (p : Progress σ τ) {supply : Supply}
    (hp : (Source.pull w.batchSize p.source).supply = supply) (hs : supply ≠ .stalled)
    (early : w.IsHeard c p) : w.Took c p (w.receive c (w.heard p) supply) := by
  cases supply with
  | stalled => exact absurd rfl hs
  | failed error => exact .rest rfl (.failed hp rfl) rfl rfl
  | batch batch =>
    by_cases hne : batch = []
    · subst hne
      exact .rest rfl (.exhausted hp early rfl) rfl rfl
    · -- The store is still the same when the answer arrives.
      cases hr : (w.commitBatch batch p.store).result with
      | error e =>
        obtain ⟨hending, hsource, hstore⟩ := w.receive_of_error c (p := w.heard p) hne hr
        exact .refused hp hr hending hsource hstore
      | ok n =>
        obtain ⟨hsource, hstore, hstats, htime, r, hrtime, hending⟩ :=
          w.receive_of_ok c (p := w.heard p) hne hr
        have hwait := (w.wait_spec c r).2.2.2.2
        rw [hrtime, ← hending] at hwait
        exact .taken hp hne hr hwait hsource hstore hstats htime early

omit [Store τ] in
/-- A request whose answer is not waited for to the end. -/
theorem pause_of_not_reaches {p r : Progress σ τ}
    (hi : c.interruption ((Source.pull w.batchSize p.source).arrival p.time) = none)
    (hr : c.reaches ((Source.pull w.batchSize p.source).arrival p.time) ≠ true) :
    w.Pause c p r .unfinished := by
  refine .unanswered fun hc => ?_
  -- Every time is watched, so what is not reached is an answer that never comes.
  have harrival : (Source.pull w.batchSize p.source).arrival p.time = none := by
    cases ha : (Source.pull w.batchSize p.source).arrival p.time with
    | none => rfl
    | some time =>
      rw [ha] at hr
      exact absurd (by simp [Conditions.reaches, Conditions.covers, hc]) hr
  constructor
  · unfold Pull.arrival at harrival
    split at harrival
    · assumption
    · cases harrival
  · rw [harrival, Conditions.interruption_eq_none_iff hc] at hi
    by_contra hfires
    obtain ⟨t, ht⟩ := Option.ne_none_iff_exists'.1 hfires
    obtain ⟨l, hl, -⟩ := hi t ht
    cases hl

/-- Every turn comes to one of the three outcomes. -/
theorem took_turn (p : Progress σ τ) : w.Took c p (w.turn c p) := by
  unfold turn
  split
  · rename_i htriggered
    obtain ⟨t, ht, hle⟩ := (Conditions.isTriggered_iff _).1 htriggered
    have hlate : ∀ a, (Source.pull w.batchSize p.source).arrival p.time = some a → t ≤ a :=
      fun a ha => hle.trans (Pull.le_of_arrival_eq_some ha)
    exact .rest rfl (.halted ht hlate (by rw [if_pos htriggered]) rfl) rfl rfl
  · rename_i htriggered
    dsimp only
    split
    · rename_i hi
      obtain ⟨ht, hlate⟩ := Conditions.of_interruption_eq_some hi
      exact .rest rfl (.halted ht hlate (by rw [if_neg htriggered]) rfl) rfl rfl
    · rename_i hi
      split
      · rename_i hr
        have hs : (Source.pull w.batchSize p.source).supply ≠ .stalled := fun hs => by
          simp [Pull.arrival, hs, Conditions.reaches] at hr
        have harrival := Pull.arrival_of_ne_stalled hs p.time
        have hearly : w.IsHeard c p := by
          rw [harrival] at hi hr
          exact fun t ht => Conditions.lt_of_interruption_eq_none hi hr ht
        -- The reports of the request do not matter to the outcome.
        cases w.took_receive c p rfl hs hearly with
        | rest he hc hs ht => exact .rest he hc hs ht
        | refused hp hr he ho hs => exact .refused hp hr he ho hs
        | taken hp hn hr he ho hs ht hm ha => exact .taken hp hn hr he ho hs ht hm ha
      · rename_i hr
        exact .rest rfl (w.pause_of_not_reaches c hi hr) rfl rfl

/-! ### Runs -/

@[simp] theorem runFrom_zero (p : Progress σ τ) :
    w.runFrom c 0 p = { progress := p, events := [], ending := .unfinished } := rfl

theorem runFrom_succ_of_some (turns : ℕ) {p : Progress σ τ} {e : Ending}
    (h : (w.turn c p).ending = some e) :
    (w.runFrom c (turns + 1) p).progress = (w.turn c p).progress ∧
      (w.runFrom c (turns + 1) p).ending = e := by
  simp [runFrom, h]

theorem runFrom_succ_of_none (turns : ℕ) {p : Progress σ τ}
    (h : (w.turn c p).ending = none) :
    (w.runFrom c (turns + 1) p).progress = (w.runFrom c turns (w.turn c p).progress).progress ∧
      (w.runFrom c (turns + 1) p).ending = (w.runFrom c turns (w.turn c p).progress).ending := by
  simp [runFrom, h]

/-- What every batch that is taken keeps, a run keeps. If no batch is refused meanwhile, the store
does not fail the run. -/
theorem runFrom_invariant {P : Stats → τ → Prop}
    (hstep : ∀ stats store batch, P stats store →
      ∃ n, (w.commitBatch batch store).result = .ok n ∧
        P (stats.count batch.length (w.guard.screen batch) n) (w.commitBatch batch store).store)
    (turns : ℕ) {p : Progress σ τ} (hp : P p.stats p.store) :
    P (w.runFrom c turns p).progress.stats (w.runFrom c turns p).progress.store ∧
      ∀ error, (w.runFrom c turns p).ending ≠ .failed (.store error) := by
  -- Only a turn that has taken a batch goes on, and it hands `P` to the turns behind it.
  induction turns generalizing p with
  | zero => exact ⟨hp, by simp⟩
  | succ turns ih =>
    cases w.took_turn c p with
    | rest ending cause store stats =>
      obtain ⟨h1, h2⟩ := w.runFrom_succ_of_some c turns ending
      rw [h1, h2, store, stats]
      exact ⟨hp, cause.ne_store⟩
    | refused _ commit =>
      obtain ⟨n, hn, -⟩ := hstep p.stats p.store _ hp
      rw [hn] at commit
      cases commit
    | taken _ _ commit ending _ store stats =>
      obtain ⟨n, hn, hP⟩ := hstep p.stats p.store _ hp
      obtain rfl := Except.ok.inj (hn.symm.trans commit)
      rw [← stats, ← store] at hP
      cases he : (w.turn c p).ending with
      | some e =>
        obtain ⟨h1, h2⟩ := w.runFrom_succ_of_some c turns he
        rw [h1, h2]
        exact ⟨hP, fun error h => by rcases ending e he with ⟨rfl, -⟩ | ⟨rfl, -⟩ <;> cases h⟩
      | none =>
        obtain ⟨h1, h2⟩ := w.runFrom_succ_of_none c turns he
        rw [h1, h2]
        exact ih hP

/-- What every commit keeps of a store, succeed or fail, a run keeps. -/
theorem runFrom_store_invariant {Q : τ → Prop}
    (hcommit : ∀ store batch, Q store → Q (w.commitBatch batch store).store)
    (turns : ℕ) {p : Progress σ τ} (hp : Q p.store) : Q (w.runFrom c turns p).progress.store := by
  induction turns generalizing p with
  | zero => exact hp
  | succ turns ih =>
    have hturn : Q (w.turn c p).progress.store := by
      cases w.took_turn c p with
      | rest _ _ store => exact store ▸ hp
      | refused _ _ _ _ store => exact store ▸ hcommit _ _ hp
      | taken _ _ _ _ _ store => exact store ▸ hcommit _ _ hp
    cases he : (w.turn c p).ending with
    | some e =>
      rw [(w.runFrom_succ_of_some c turns he).1]
      exact hturn
    | none =>
      rw [(w.runFrom_succ_of_none c turns he).1]
      exact ih hturn

end Worker

/-! ### Before shutdown -/

/-- Nothing ends a run from outside: shutdown is never requested, and there is no time at which
the run is no longer watched. -/
structure Conditions.IsUndisturbed (c : Conditions) : Prop where
  never_fires : c.shutdown.firesAt = none
  no_horizon : c.horizon = none

/-- Nothing ends a run from outside up to a time. -/
structure Conditions.IsQuietUntil (c : Conditions) (time : ℕ) : Prop where
  fires_later : ∀ t, c.shutdown.firesAt = some t → time < t
  no_horizon : c.horizon = none

namespace Conditions

variable {c : Conditions} {time time' : ℕ}

theorem IsUndisturbed.isQuietUntil (hc : c.IsUndisturbed) (time : ℕ) : c.IsQuietUntil time where
  fires_later t ht := by
    rw [hc.never_fires] at ht
    cases ht
  no_horizon := hc.no_horizon

namespace IsQuietUntil

variable (hc : c.IsQuietUntil time)
include hc

theorem mono (h : time' ≤ time) : c.IsQuietUntil time' where
  fires_later t ht := h.trans_lt (hc.fires_later t ht)
  no_horizon := hc.no_horizon

theorem isTriggered_eq (h : time' ≤ time) : c.isTriggered time' = false := by
  rw [Bool.eq_false_iff, Ne, isTriggered_iff]
  rintro ⟨t, ht, hle⟩
  have := hc.fires_later t ht
  omega

theorem interruption_eq (h : time' ≤ time) : c.interruption (some time') = none := by
  rw [interruption_eq_none_iff hc.no_horizon]
  intro t ht
  exact ⟨time', rfl, h.trans_lt (hc.fires_later t ht)⟩

theorem covers_eq (time : ℕ) : c.covers time = true := by
  simp [covers, hc.no_horizon]

end IsQuietUntil

end Conditions

namespace Worker

variable {σ τ : Type} [Source σ] [Store τ] (w : Worker) {c : Conditions} {p : Progress σ τ}

/-- A turn takes the answer of the source, when there is one before shutdown is requested. -/
theorem turn_of_isQuiet (hs : (Source.pull w.batchSize p.source).supply ≠ .stalled)
    (hc : c.IsQuietUntil (p.time + (Source.pull w.batchSize p.source).delay)) :
    ∃ events, w.turn c p =
      { w.receive c (w.heard p) (Source.pull w.batchSize p.source).supply with events } := by
  have harrival := Pull.arrival_of_ne_stalled hs p.time
  have hreaches : c.reaches (some (p.time + (Source.pull w.batchSize p.source).delay)) = true :=
    hc.covers_eq _
  simp only [turn, hc.isTriggered_eq (Nat.le_add_right _ _), harrival, hc.interruption_eq le_rfl,
    hreaches, if_true, Bool.false_eq_true, if_false]
  exact ⟨_, rfl⟩

omit [Source σ] [Store τ] in
/-- The wait behind a batch comes to its end, when that is before shutdown is requested. -/
theorem wait_ending_of_isQuiet (hc : c.IsQuietUntil (p.time + w.pollInterval)) :
    (w.wait c p).ending = none := by
  unfold wait
  split
  · rfl
  · simp [hc.interruption_eq le_rfl, hc.covers_eq]

/-- A batch that is committed is taken, and the run goes on behind the wait. -/
theorem turn_of_commit {batch : List Transfer} {n : ℕ}
    (hs : (Source.pull w.batchSize p.source).supply = .batch batch) (hne : batch ≠ [])
    (hn : (w.commitBatch batch p.store).result = .ok n)
    (hc : c.IsQuietUntil (p.time + (Source.pull w.batchSize p.source).delay +
      (w.commitBatch batch p.store).delay + w.pollInterval)) :
    (w.turn c p).ending = none ∧
      (w.turn c p).progress.source = (Source.pull w.batchSize p.source).source ∧
      (w.turn c p).progress.store = (w.commitBatch batch p.store).store ∧
      (w.turn c p).progress.stats = p.stats.count batch.length (w.guard.screen batch) n ∧
      (w.turn c p).progress.time = p.time + (Source.pull w.batchSize p.source).delay +
        (w.commitBatch batch p.store).delay + w.pollInterval := by
  obtain ⟨events, hturn⟩ := w.turn_of_isQuiet (p := p) (by rw [hs]; simp) (hc.mono (by omega))
  obtain ⟨hsource, hstore, hstats, htime, r, hr, hending⟩ :=
    w.receive_of_ok c (p := w.heard p) hne hn
  have hgoes : (w.receive c (w.heard p) (.batch batch)).ending = none := by
    rw [hending]
    refine w.wait_ending_of_isQuiet ?_
    rw [hr]
    exact hc
  rw [hturn, hs]
  exact ⟨hgoes, hsource, hstore, hstats, htime hgoes⟩

/-- A batch that is refused fails the run. -/
theorem turn_of_refusal {batch : List Transfer} {error : StoreError}
    (hs : (Source.pull w.batchSize p.source).supply = .batch batch) (hne : batch ≠ [])
    (he : (w.commitBatch batch p.store).result = .error error)
    (hc : c.IsQuietUntil (p.time + (Source.pull w.batchSize p.source).delay)) :
    (w.turn c p).ending = some (.failed (.store error)) ∧
      (w.turn c p).progress.source = (Source.pull w.batchSize p.source).source ∧
      (w.turn c p).progress.store = (w.commitBatch batch p.store).store := by
  obtain ⟨events, hturn⟩ := w.turn_of_isQuiet (p := p) (by rw [hs]; simp) hc
  rw [hturn, hs]
  exact w.receive_of_error c (p := w.heard p) hne he

/-- A request that fails is the last one. -/
theorem turn_of_failure {error : SourceError}
    (hs : (Source.pull w.batchSize p.source).supply = .failed error)
    (hc : c.IsQuietUntil (p.time + (Source.pull w.batchSize p.source).delay)) :
    (w.turn c p).ending = some (.failed (.source error)) ∧
      (w.turn c p).progress.source = (Source.pull w.batchSize p.source).source ∧
      (w.turn c p).progress.store = p.store := by
  obtain ⟨events, hturn⟩ := w.turn_of_isQuiet (p := p) (by rw [hs]; simp) hc
  rw [hturn, hs]
  exact ⟨rfl, rfl, rfl⟩

/-- So is one that hears of the end, which ends the run in order. -/
theorem turn_of_exhausted (hs : (Source.pull w.batchSize p.source).supply = .batch [])
    (hc : c.IsQuietUntil (p.time + (Source.pull w.batchSize p.source).delay)) :
    (w.turn c p).ending = some (.finished .exhausted) ∧
      (w.turn c p).progress.source = (Source.pull w.batchSize p.source).source ∧
      (w.turn c p).progress.store = p.store ∧ (w.turn c p).progress.stats = p.stats := by
  obtain ⟨events, hturn⟩ := w.turn_of_isQuiet (p := p) (by rw [hs]; simp) hc
  rw [hturn, hs]
  exact ⟨rfl, rfl, rfl, rfl⟩

end Worker

end TransferLedger
