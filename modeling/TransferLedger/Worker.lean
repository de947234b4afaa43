import TransferLedger.Screening
import TransferLedger.Shutdown
import TransferLedger.Source
import TransferLedger.Store
/-!
# The commit worker

The worker asks a source for batches, screens each, commits what is left and waits a while, until
the source is exhausted, shutdown is requested, or the source or the store fails.

* `Worker`: the rule on amounts, the batch size and the waiting time;
* `Conditions`: when shutdown is requested, and for how long the run is watched;
* `Progress`: where a run stands, between two batches;
* `Worker.turn`: one batch, from the request for it to the end of the wait behind it;
* `Worker.runFrom`, `Worker.run`: turn after turn.

Time is counted in milliseconds from the start of the run. Only waiting takes time: for an answer
of the source, for a commit, or behind a batch. A commit that has begun is always waited for.
-/

namespace TransferLedger

/-- Why a run fails. -/
inductive WorkerError
  | source (error : SourceError)
  | store (error : StoreError)
  deriving DecidableEq

/-- The wording of the failure that ended the run. -/
def WorkerError.cause : WorkerError → String
  | .source error => error.message
  | .store error => error.message

/-- The wording of the failure of the run. -/
def WorkerError.message : WorkerError → String
  | .source error => s!"Source error: {error.message}"
  | .store error => s!"Store error: {error.message}"

/-- How batches are taken. -/
structure Worker where
  guard : Guard := Guard.numeric
  batchSize : Nat
  /-- The wait behind a batch in milliseconds; none when it is zero. -/
  pollInterval : Nat := 0

/-- What a run is subject to. -/
structure Conditions where
  shutdown : Schedule := []
  /-- When the run is no longer watched; it is for ever when absent. -/
  horizon : Option Nat := none
  deriving DecidableEq, Repr

namespace Conditions

/-- Whether shutdown is requested at a time. -/
def isTriggered (c : Conditions) (time : Nat) : Bool := (c.shutdown.channelAt time).fired

/-- Whether a time is still watched. -/
def covers (c : Conditions) (time : Nat) : Bool :=
  match c.horizon with
  | none => true
  | some h => time < h

/-- Whether a time that may never come is still watched. -/
def reaches (c : Conditions) (time : Option Nat) : Bool := time.any c.covers

/-- The time of the request for shutdown, when it comes no later than a given time, if one is
given, and is watched. -/
def interruption (c : Conditions) (limit : Option Nat) : Option Nat :=
  match c.shutdown.firesAt with
  | none => none
  | some time =>
    if c.covers time && limit.all fun l => time ≤ l then some time else none

end Conditions

/-- Where a run stands between two batches. -/
structure Progress (σ τ : Type) where
  source : σ
  store : τ
  time : Nat := 0
  stats : Stats := {}

/-- How a run ends. -/
inductive Ending
  | finished (reason : StopReason)
  | failed (error : WorkerError)
  /-- The run goes on for longer than it is watched. -/
  | unfinished
  deriving DecidableEq

/-- A part of a run: where it stands afterwards, what was reported, and the ending, if it has come
to one. -/
structure Stretch (σ τ : Type) where
  progress : Progress σ τ
  events : List Event := []
  ending : Option Ending := none

namespace Stretch

variable {σ τ : Type}

/-- The end of a run in order. -/
def stop (p : Progress σ τ) (reason : StopReason) : Stretch σ τ where
  progress := p
  events := [.stopping reason]
  ending := some (.finished reason)

/-- A stretch followed by another, unless it has come to an end. -/
def andThen (s : Stretch σ τ) (next : Progress σ τ → Stretch σ τ) : Stretch σ τ :=
  match s.ending with
  | some _ => s
  | none =>
    let t := next s.progress
    { t with events := s.events ++ t.events }

end Stretch

/-- A whole run. -/
structure Run (σ τ : Type) where
  progress : Progress σ τ
  events : List Event
  ending : Ending

namespace Worker

variable {σ τ : Type} [Source σ] [Store τ] (w : Worker) (c : Conditions)

/-- The wait behind a batch. -/
def wait (p : Progress σ τ) : Stretch σ τ :=
  if w.pollInterval = 0 then { progress := p }
  else
    let wake := p.time + w.pollInterval
    match c.interruption (some wake) with
    | some time => Stretch.stop { p with time := max p.time time } .idle
    | none =>
      if c.covers wake then { progress := { p with time := wake } }
      else { progress := p, ending := some .unfinished }

/-- What is reported of a batch when it has been committed. -/
def batchTrace (batch : Nat) (s : Screened) : List Event :=
  (if s.excluded.isEmpty then [] else [.batchIncomplete batch s.excluded.length]) ++
    [.batchProcessed batch s.accepted.length]

/-- Commits what screening accepts of a batch. When nothing is accepted, the store is left
alone. -/
def commitAccepted (s : Screened) (store : τ) : Commit τ :=
  if s.accepted.isEmpty then { result := .ok 0, store } else Store.commit s.accepted store

/-- Screens a batch and commits it. -/
def process (p : Progress σ τ) (batch : List Transfer) : Stretch σ τ :=
  let screened := w.guard.screen batch
  let trace := w.guard.screenTrace batch
  let commit := commitAccepted screened p.store
  let time := p.time + commit.delay
  let stats := { p.stats with
    batches := p.stats.batches + 1
    received := p.stats.received + batch.length
    excluded := p.stats.excluded + screened.excluded.length }
  match commit.result with
  | .error error =>
    { progress := { p with store := commit.store, time, stats }
      events := trace ++ commit.events
      ending := some (.failed (.store error)) }
  | .ok inserted =>
    let stats := { stats with
      committed := stats.committed + inserted
      duplicates := stats.duplicates + (screened.accepted.length - inserted) }
    { progress := { p with store := commit.store, time, stats }
      events := trace ++ commit.events ++ batchTrace stats.batches screened }

/-- What follows the answer to a request, up to the end of the wait behind a batch. -/
def receive (p : Progress σ τ) (supply : Supply) : Stretch σ τ :=
  match supply with
  | .stalled => { progress := p, ending := some .unfinished }
  | .failed error => { progress := p, ending := some (.failed (.source error)) }
  | .batch [] => Stretch.stop p .exhausted
  | .batch batch => (w.process p batch).andThen (w.wait c)

/-- One batch, from the request for it to the end of the wait behind it. Shutdown is looked for
before the request and until the answer to it arrives, at the arrival too; an answer that is not
waited for leaves nothing behind. -/
def turn (p : Progress σ τ) : Stretch σ τ :=
  if c.isTriggered p.time then Stretch.stop p .beforeBatch
  else
    let pull := Source.pull w.batchSize p.source
    let arrival := pull.arrival p.time
    match c.interruption arrival with
    | some time => Stretch.stop { p with time } .waiting
    | none =>
      if c.reaches arrival then
        let s := w.receive c
          { p with source := pull.source, time := p.time + pull.delay } pull.supply
        { s with events := pull.events ++ s.events }
      else { progress := p, ending := some .unfinished }

/-- What is reported at the end of a run. -/
def closing (ending : Ending) (stats : Stats) : List Event :=
  match ending with
  | .finished _ => [.workerStopped stats]
  | _ => []

/-- Takes up to a number of turns. -/
def runFrom : Nat → Progress σ τ → Run σ τ
  | 0, p => { progress := p, events := [], ending := .unfinished }
  | turns + 1, p =>
    let s := w.turn c p
    match s.ending with
    | some ending =>
      { progress := s.progress, events := s.events ++ closing ending s.progress.stats, ending }
    | none =>
      let rest := runFrom turns s.progress
      { rest with events := s.events ++ rest.events }

/-- A run of up to a number of turns, from its start. -/
def runFor (turns : Nat) (source : σ) (store : τ) : Run σ τ :=
  let run := w.runFrom c turns { source, store }
  { run with events := .workerStarted w.batchSize w.guard.precision :: run.events }

/-- A run over everything that a source can hand out. -/
def run (source : σ) (store : τ) : Run σ τ := w.runFor c (Source.bound source) source store

end Worker

end TransferLedger
