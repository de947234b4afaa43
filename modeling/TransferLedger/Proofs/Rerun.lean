import Mathlib.Tactic
import TransferLedger.Proofs.WholeRun

/-!
# Running again after an interruption

A source may take its time, a store may fail, and a run may be shut down or stopped. Whatever became
of earlier sessions, a run over the same source that nothing cuts short has the same outcome.

* `Paced`, `Faulty`: a source with delays, and a store with failures;
* `Session`: a run with its delays, its failures and all that may cut it short;
* `Session.IsWhole`: nothing cuts it short;
* `Session.rows_after`: a session enrols the rows of a prefix of what the source has;
* `SessionsAbsorbed`, `sessionsAbsorbed_of_isReady`: a whole session makes up for those before it,
  and none behind it adds anything.
-/

namespace TransferLedger

open LawfulSource LawfulStore

/-! ### Sources that take their time -/

/-- A source with the delays of its next answers. -/
structure Paced (σ : Type) where
  source : σ
  delays : List ℕ := []

instance {σ : Type} [Source σ] : Source (Paced σ) where
  pull max s :=
    let p := Source.pull max s.source
    { supply := p.supply
      source := ⟨p.source, s.delays.tail⟩
      delay := p.delay + s.delays.headD 0
      events := p.events }
  bound s := Source.bound s.source

instance {σ : Type} [Source σ] [LawfulSource σ] : LawfulSource (Paced σ) where
  remaining s := remaining s.source
  IsSound s := IsSound s.source
  supply_eq hs max := supply_eq hs max
  source_spec hs max := source_spec hs max
  length_lt_bound s := length_lt_bound s.source

/-! ### Stores that fail -/

/-- A store with the failures of its next commits. A commit that fails leaves the store as it
was. -/
structure Faulty (τ : Type) where
  store : τ
  faults : List (Option StoreError) := []

instance {τ : Type} [Store τ] : Store (Faulty τ) where
  commit batch s :=
    match s.faults.head?.join with
    | some error => { result := .error error, store := { s with faults := s.faults.tail } }
    | none =>
      let c := Store.commit batch s.store
      { result := c.result
        store := ⟨c.store, s.faults.tail⟩
        delay := c.delay
        events := c.events }
  recent limit s := Store.recent limit s.store
  count s := Store.count s.store

namespace Faulty

variable {τ : Type} [Store τ] {s : Faulty τ} (batch : List Transfer)

theorem commit_of_some {error : StoreError} (h : s.faults.head?.join = some error) :
    Store.commit batch s =
      { result := .error error, store := { s with faults := s.faults.tail } } := by
  show (match s.faults.head?.join with | some _ => _ | none => _) = _
  rw [h]

theorem commit_of_none (h : s.faults.head?.join = none) :
    (Store.commit batch s).result = (Store.commit batch s.store).result ∧
      (Store.commit batch s).store = ⟨(Store.commit batch s.store).store, s.faults.tail⟩ := by
  have : Store.commit batch s =
      { result := (Store.commit batch s.store).result
        store := ⟨(Store.commit batch s.store).store, s.faults.tail⟩
        delay := (Store.commit batch s.store).delay
        events := (Store.commit batch s.store).events } := by
    show (match s.faults.head?.join with | some _ => _ | none => _) = _
    rw [h]
  rw [this]
  exact ⟨rfl, rfl⟩

/-- In memory, a commit that fails is one for which a failure was armed. -/
theorem commit_eq_failNext {s : Faulty MemoryStore} {error : StoreError}
    (hs : s.store.armed = none) (h : s.faults.head?.join = some error) :
    (Store.commit batch s).result = (Store.commit batch (s.store.failNext error)).result ∧
      (Store.commit batch s).store.store =
        (Store.commit batch (s.store.failNext error)).store := by
  rw [commit_of_some batch h]
  refine ⟨rfl, ?_⟩
  show s.store = { s.store.failNext error with armed := none }
  rw [MemoryStore.failNext, ← hs]

end Faulty

instance {τ ρ κ : Type} [DecidableEq κ] [Store τ] [LawfulStore τ ρ κ] :
    LawfulStore (Faulty τ) ρ κ where
  rows s := rows s.store
  row := row τ
  name := name τ
  name_row_iff := name_row_iff
  IsReady s := IsReady s.store ∧ ∀ fault ∈ s.faults, fault = none
  rows_of_error {s batch e} h := by
    cases hf : s.faults.head?.join with
    | some error => rw [Faulty.commit_of_some batch hf]
    | none =>
      obtain ⟨hr, hs⟩ := Faulty.commit_of_none batch hf
      rw [hr] at h
      rw [hs]
      exact rows_of_error h
  rows_of_ok {s batch n} h := by
    cases hf : s.faults.head?.join with
    | some error =>
      rw [Faulty.commit_of_some batch hf] at h
      cases h
    | none =>
      obtain ⟨hr, hs⟩ := Faulty.commit_of_none batch hf
      rw [hr] at h
      rw [hs]
      exact rows_of_ok h
  isReady_commit {s} hs batch := by
    have htail : ∀ fault ∈ s.faults.tail, fault = none := fun f hf =>
      hs.2 f (List.mem_of_mem_tail hf)
    cases hf : s.faults.head?.join with
    | some error =>
      rw [Faulty.commit_of_some batch hf]
      exact ⟨hs.1, htail⟩
    | none =>
      rw [(Faulty.commit_of_none batch hf).2]
      exact ⟨isReady_commit hs.1 batch, htail⟩
  exists_ok {s batch} hs hb := by
    have hf : s.faults.head?.join = none := by
      cases hfaults : s.faults with
      | nil => rfl
      | cons f fs => simpa [hfaults] using hs.2 f (by simp [hfaults])
    rw [(Faulty.commit_of_none batch hf).1]
    exact exists_ok hs.1 hb

/-! ### Sessions -/

/-- A run with all that may happen to it. Shutdown is in its conditions, and it may be stopped after
a number of turns. -/
structure Session where
  batchSize : ℕ
  batchSize_pos : 0 < batchSize := by decide
  pollInterval : ℕ := 0
  conditions : Conditions := {}
  delays : List ℕ := []
  faults : List (Option StoreError) := []
  turns : ℕ

namespace Session

variable {σ τ : Type} [Source σ] [Store τ] (a : Session) (source : σ) (store : τ)

/-- The run over a source, from its start. -/
def run : Run (Paced σ) (Faulty τ) :=
  ({ batchSize := a.batchSize, pollInterval := a.pollInterval } : Worker).runFor a.conditions
    a.turns ⟨source, a.delays⟩ ⟨store, a.faults⟩

/-- The store afterwards. -/
def storeAfter : τ := (a.run source store).progress.store.store

omit [Store τ] in
/-- Nothing cuts a session short: no shutdown, no failure, and there are turns enough. -/
structure IsWhole (source : σ) : Prop where
  conditions : a.conditions.IsUndisturbed
  faults : ∀ fault ∈ a.faults, fault = none
  turns : Source.bound source ≤ a.turns

variable [LawfulSource σ] {ρ κ : Type} [DecidableEq κ] [LawfulStore τ ρ κ]
variable {source : σ} (hs : IsSound source)
include hs

/-- A session has enrolled the rows of a prefix. Unless the store has failed it, it tells how many
rows are new. -/
theorem rows_after : ∃ taken, taken <+: remaining source ∧
    rows (a.storeAfter source store) = enrolAll (name τ) (rows store) (storableRows τ taken) ∧
    ((∀ error, (a.run source store).ending ≠ .failed (.store error)) →
      (a.run source store).progress.stats.Tallies taken (rows store).length
        (rows (a.storeAfter source store)).length) :=
  have hsound : IsSound (⟨source, a.delays⟩ : Paced σ) := hs
  Worker.runFor_takes { batchSize := a.batchSize, pollInterval := a.pollInterval } rfl hsound
    (⟨store, a.faults⟩ : Faulty τ) a.conditions a.turns

/-- A whole session has enrolled the rows of all. -/
theorem rows_after_whole (ha : a.IsWhole source) (hr : IsReady store) :
    (a.run source store).ending = .finished .exhausted ∧
      rows (a.storeAfter source store) =
        enrolAll (name τ) (rows store) (storableRows τ (remaining source)) := by
  have hturns : (remaining source).length < a.turns :=
    (length_lt_bound source).trans_le ha.turns
  have hsound : IsSound (⟨source, a.delays⟩ : Paced σ) := hs
  have hready : IsReady (⟨store, a.faults⟩ : Faulty τ) := ⟨hr, ha.faults⟩
  obtain ⟨hending, hrows, -⟩ :=
    Worker.runFor_exhausts { batchSize := a.batchSize, pollInterval := a.pollInterval } rfl hsound
      (⟨store, a.faults⟩ : Faulty τ) ha.conditions a.batchSize_pos hready hturns
  exact ⟨hending, hrows⟩

omit [LawfulSource σ] hs in
/-- No session leaves anything in the way of the next. -/
theorem isReady_after (hr : IsReady store) : IsReady (a.storeAfter source store) := by
  refine Worker.runFrom_store_invariant _ a.conditions (Q := fun s : Faulty τ => IsReady s.store) ?_
    a.turns hr
  intro s batch h
  show IsReady (Worker.commitAccepted _ s).store.store
  unfold Worker.commitAccepted
  split
  · exact h
  · cases hf : s.faults.head?.join with
    | some error =>
      rw [Faulty.commit_of_some _ hf]
      exact h
    | none =>
      rw [(Faulty.commit_of_none _ hf).2]
      exact isReady_commit h _

/-- What earlier sessions have enrolled makes no difference to a whole one. -/
theorem enrolAll_after (earlier : List Session) :
    enrolAll (name τ) (rows (earlier.foldl (fun s a => a.storeAfter source s) store))
        (storableRows τ (remaining source)) =
      enrolAll (name τ) (rows store) (storableRows τ (remaining source)) := by
  -- Each session has enrolled a prefix of what the whole one is going to enrol.
  induction earlier generalizing store with
  | nil => rfl
  | cons a earlier ih =>
    obtain ⟨taken, hprefix, hrows, -⟩ := a.rows_after store hs
    rw [List.foldl_cons, ih, hrows, enrolAll_of_prefix _ (prefix_storableRows hprefix)]

/-- Behind a whole session, another one finds every name taken. -/
theorem rows_after_enrolled {s : τ} {first : List ρ}
    (h : rows s = enrolAll (name τ) first (storableRows τ (remaining source))) :
    rows (a.storeAfter source s) = rows s ∧
      ∀ reason, (a.run source s).ending = .finished reason →
        (a.run source s).progress.stats.committed = 0 ∧
          (a.run source s).progress.stats.duplicates =
            (a.run source s).progress.stats.received -
              (a.run source s).progress.stats.excluded := by
  obtain ⟨taken, hprefix, hrows, htally⟩ := a.rows_after s hs
  have hsame : rows (a.storeAfter source s) = rows s := by
    rw [hrows]
    -- Every name in the prefix is among those that the whole session has enrolled.
    refine enrolAll_of_subset _ fun r hr => ?_
    rw [h, mem_map_enrolAll]
    exact .inr (List.mem_map_of_mem ((prefix_storableRows hprefix).subset hr))
  refine ⟨hsame, fun reason hending => ?_⟩
  obtain ⟨-, -, hcommitted, hbalanced⟩ := htally fun error => by
    rw [hending]
    simp
  rw [hsame] at hcommitted
  constructor
  · omega
  · omega

end Session

/-! ### Sessions behind sessions -/

/-- Whatever sessions there were, a whole one leaves the rows that it alone would have left, and no
session behind it adds anything. -/
def SessionsAbsorbed {σ τ ρ κ : Type} [Source σ] [DecidableEq κ] [Store τ] [LawfulStore τ ρ κ]
    (source : σ) (store : τ) : Prop :=
  ∀ (earlier : List Session) (single final : Session),
    single.IsWhole source → final.IsWhole source →
    let before := earlier.foldl (fun s a => a.storeAfter source s) store
    let after := final.storeAfter source before
    (final.run source before).ending = .finished .exhausted ∧
      rows after = rows (single.storeAfter source store) ∧
      ∀ again : Session,
        let run := again.run source after
        rows (again.storeAfter source after) = rows after ∧
          ∀ reason, run.ending = .finished reason →
            run.progress.stats.committed = 0 ∧
              run.progress.stats.duplicates =
                run.progress.stats.received - run.progress.stats.excluded

theorem sessionsAbsorbed_of_isReady {σ τ ρ κ : Type} [Source σ] [LawfulSource σ] [DecidableEq κ]
    [Store τ] [LawfulStore τ ρ κ] {source : σ} (hs : IsSound source) {store : τ}
    (hr : IsReady store) : SessionsAbsorbed source store := by
  intro earlier single final hsingle hfinal before after
  have hready : IsReady before := by
    refine List.foldlRecOn earlier _ hr fun s h a _ => ?_
    exact a.isReady_after s h
  obtain ⟨hending, hrows⟩ := final.rows_after_whole before hs hfinal hready
  rw [Session.enrolAll_after store hs] at hrows
  obtain ⟨-, halone⟩ := single.rows_after_whole store hs hsingle hr
  exact ⟨hending, hrows.trans halone.symm, fun again => again.rows_after_enrolled hs hrows⟩

/-- **Interrupted work can be run again.** Over the lines of some bytes in UTF-8, any sessions, cut
short by shutdown or by a store that fails, are made up for by one that nothing cuts short: the rows
are those that it alone would have left, in the same order. A session behind it adds nothing, and
counts what could be stored as duplicates. -/
theorem sessionsAbsorbed_of_text {bytes : List UInt8} (htext : IsText bytes) :
    (∀ rows : List Transfer,
      SessionsAbsorbed (Lines.ofBytes bytes) ({ rows } : MemoryStore)) ∧
    ∀ table : Table, SessionsAbsorbed (Lines.ofBytes bytes) table :=
  have hsound := Lines.isSound_ofBytes htext
  ⟨fun _ => sessionsAbsorbed_of_isReady hsound rfl,
    fun _ => sessionsAbsorbed_of_isReady hsound trivial⟩

theorem sessionsAbsorbed_of_sampleText :
    IsText (Text.Utf8.encode sampleText) ∧
      let source := Lines.ofBytes (Text.Utf8.encode sampleText)
      let cut : Session :=
        { batchSize := 2
          pollInterval := 10
          conditions := { shutdown := [(5, .fire)] }
          turns := 9 }
      let broken : Session := { batchSize := 2, faults := [none, some (.task "")], turns := 9 }
      let whole : Session := { batchSize := 4, turns := 9 }
      whole.IsWhole source ∧
        let store := [cut, broken].foldl (fun s a => a.storeAfter source s) ({} : MemoryStore)
        store.rows = [sampleTransfer 1 5] ∧
          (whole.storeAfter source store).rows =
            [sampleTransfer 1 5, sampleTransfer 3 0, sampleTransfer 4 8] := by
  have htext := isText_encode sampleText
  refine ⟨htext, ?_⟩
  intro source cut broken whole
  have hwhole : whole.IsWhole source := by
    refine ⟨⟨rfl, rfl⟩, by simp [whole], ?_⟩
    decide +kernel
  refine ⟨hwhole, ?_⟩
  intro store
  constructor
  · decide +kernel
  · obtain ⟨-, hrows, -⟩ :=
      (sessionsAbsorbed_of_text htext).1 [] [cut, broken] whole whole hwhole hwhole
    change MemoryStore.rows _ = MemoryStore.rows _ at hrows
    refine hrows.trans ?_
    decide +kernel

end TransferLedger
