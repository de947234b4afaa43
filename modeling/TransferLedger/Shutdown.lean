/-!
# Requests to shut down

A trigger asks for shutdown, and any number of signals tell of it. The request, once made, stays.

* `Channel`: whether the trigger is still held, whether it has fired, and how many signals listen;
* `Action`, `Channel.apply`: what can be done with the trigger;
* `Schedule`: the actions on a trigger and their times;
* `Schedule.firesAt`: when the signals first tell of a request.
-/

namespace TransferLedger

/-- A trigger and its signals. -/
structure Channel where
  held : Bool := true
  fired : Bool := false
  signals : Nat := 1
  deriving DecidableEq, Repr

/-- What can be done with a trigger. -/
inductive Action
  | fire
  | drop
  deriving DecidableEq, Repr

namespace Channel

/-- Acts on the trigger. Without it nothing happens. -/
def apply (c : Channel) : Action → Channel
  | .fire => { c with fired := c.fired || c.held }
  | .drop => { c with held := false }

/-- One more signal, which tells the same. -/
def clone (c : Channel) : Channel := { c with signals := c.signals + 1 }

/-- Whether waiting for the request comes to an end, when nothing else happens. A trigger that is
gone without having fired leaves the waiter waiting. -/
def waitEnds (c : Channel) : Bool := c.fired

end Channel

/-- The actions on a trigger, each with its time, in the order of time. -/
abbrev Schedule := List (Nat × Action)

namespace Schedule

/-- The channel at a time. -/
def channelAt (s : Schedule) (time : Nat) : Channel :=
  (s.takeWhile fun (t, _) => t ≤ time).foldl (fun c (_, a) => c.apply a) {}

/-- When the signals first tell of a request: at the first firing, unless the trigger is gone
before. -/
def firesAt : Schedule → Option Nat
  | [] => none
  | (time, .fire) :: _ => some time
  | (_, .drop) :: _ => none

end Schedule

end TransferLedger
