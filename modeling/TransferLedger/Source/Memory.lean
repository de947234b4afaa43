import TransferLedger.Source
/-!
# Transfers in memory

* `Pending`: a list of transfers that is handed out from the front;
* `Script`: batches that are handed out as they are, followed by an ending of choice.
-/

namespace TransferLedger

/-- Transfers that wait to be handed out. -/
structure Pending where
  transfers : List Transfer
  deriving DecidableEq

namespace Pending

/-- How many transfers wait. -/
def size (s : Pending) : Nat := s.transfers.length

/-- Hands out the first transfers, up to a number of them. -/
def pull (max : Nat) (s : Pending) : Pull Pending where
  supply := .batch (s.transfers.take max)
  source := ⟨s.transfers.drop max⟩

instance : Source Pending where
  pull := pull
  bound s := s.size + 1

end Pending

/-- What a script does when its batches are used up. -/
inductive Finale
  | ends
  | stalls
  | fails (error : SourceError)
  deriving DecidableEq, Repr

/-- Batches that are handed out as they are, whatever size is asked for, and what follows. -/
structure Script where
  batches : List (List Transfer)
  finale : Finale
  deriving DecidableEq

namespace Script

/-- Hands out the next batch, or what follows the last. -/
def pull (_max : Nat) (s : Script) : Pull Script :=
  match s.batches with
  | batch :: rest => { supply := .batch batch, source := { s with batches := rest } }
  | [] =>
    match s.finale with
    | .ends => { supply := .batch [], source := s }
    | .stalls => { supply := .stalled, source := s }
    | .fails error => { supply := .failed error, source := s }

instance : Source Script where
  pull := pull
  bound s := s.batches.length + 1

end Script

end TransferLedger
