import TransferLedger.Event
import TransferLedger.Text.Utf8
/-!
# Sources of transfers

A source hands out transfers in batches until it has none left.

* `SourceError`: why a source fails;
* `Supply`: the answer to a request for a batch;
* `Source`: what a type needs to serve as a source.
-/

namespace TransferLedger

/-- Why a source fails: a line that is not text, or a failure reported from outside. -/
inductive SourceError
  | undecodable (fault : Text.Utf8.Fault)
  | reported (text : String)
  deriving DecidableEq, Repr

/-- The wording of a failure. -/
def SourceError.message : SourceError → String
  | .undecodable fault => s!"Read failed: {fault.message}"
  | .reported text => s!"Read failed: {text}"

/-- The answer to a request for a batch. An empty batch says that the source is exhausted. -/
inductive Supply
  | batch (transfers : List Transfer)
  | failed (error : SourceError)
  /-- No answer comes, however long one waits. -/
  | stalled
  deriving DecidableEq

/-- A request for a batch and what comes of it: the answer, the source afterwards and what it
reported. -/
structure Pull (σ : Type) where
  supply : Supply
  source : σ
  /-- How long the answer takes, in milliseconds. -/
  delay : Nat := 0
  events : List Event := []

/-- When the answer to a request made at a time arrives, if it ever does. -/
def Pull.arrival {σ : Type} (pull : Pull σ) (time : Nat) : Option Nat :=
  match pull.supply with
  | .stalled => none
  | _ => some (time + pull.delay)

/-- A type that hands out transfers. -/
class Source (σ : Type) where
  /-- Asks for a batch of a largest size. -/
  pull : Nat → σ → Pull σ
  /-- A number of requests after which the source is exhausted or stays without an answer. -/
  bound : σ → Nat

end TransferLedger
