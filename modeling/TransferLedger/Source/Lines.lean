import TransferLedger.Source
import TransferLedger.Text.Blank
import TransferLedger.Transfer.Json
/-!
# Transfers from lines of JSON

A stream of bytes in which every line holds a transfer as JSON.

* `splitLines`: the lines of some bytes;
* `Reading`: what a line amounts to;
* `Lines`: the lines that are left, with how many were read and how many skipped;
* `Lines.pull`: the next transfers.

A blank line is passed over, a line of text that holds no transfer is skipped, counted and
reported. A line that is not UTF-8 fails the request: what the request had read before it is not
handed out, and the next request goes on behind it. Such a line has no number.
-/

namespace TransferLedger

/-- A line without the carriage return that may end it, the line given in reverse. -/
def chomp : List UInt8 → List UInt8
  | b :: r => if b = 0x0d then r.reverse else (b :: r).reverse
  | [] => []

/-- The lines of some bytes, behind the start of a line given in reverse. The last line may lack
its newline; a carriage return counts as part of an ending only before a newline. -/
def splitLinesFrom (start : List UInt8) : List UInt8 → List (List UInt8)
  | [] => if start.isEmpty then [] else [start.reverse]
  | b :: r => if b = 0x0a then chomp start :: splitLinesFrom [] r else splitLinesFrom (b :: start) r

/-- The lines of some bytes, without their endings. -/
def splitLines (bytes : List UInt8) : List (List UInt8) := splitLinesFrom [] bytes

/-- What a line amounts to. -/
inductive Reading
  | undecodable (fault : Text.Utf8.Fault)
  | blank
  | malformed (fault : Json.Fault)
  | transfer (t : Transfer)
  deriving DecidableEq

/-- Reads a line. Its ending is taken off before it is decoded, so a character that the ending cuts
short is an incomplete one. -/
def Reading.ofLine (line : List UInt8) : Reading :=
  match Text.Utf8.decode line with
  | .error fault => .undecodable fault
  | .ok text =>
    let text := Text.trim text
    if text.isEmpty then .blank
    else
      match Transfer.ofJson text with
      | .ok t => .transfer t
      | .error fault => .malformed fault

/-- The lines that are left of a stream. -/
structure Lines where
  pending : List (List UInt8)
  /-- How many lines of text have been read. -/
  read : Nat := 0
  /-- How many of them were skipped. -/
  skipped : Nat := 0
  deriving DecidableEq

namespace Lines

/-- The lines of a stream, before any of them is read. -/
def ofBytes (bytes : List UInt8) : Lines where
  pending := splitLines bytes

/-- Puts a transfer in front of what else a request hands out. -/
def prepend (t : Transfer) (p : Pull Lines) : Pull Lines :=
  match p.supply with
  | .batch ts => { p with supply := .batch (t :: ts) }
  | _ => p

/-- Reads lines until a number of transfers is found, a line is not UTF-8, or none is left. -/
def pullFrom : Nat → List (List UInt8) → (read skipped : Nat) → Pull Lines
  | 0, pending, read, skipped =>
    { supply := .batch [], source := { pending, read, skipped } }
  | _ + 1, [], read, skipped =>
    { supply := .batch [], source := { pending := [], read, skipped } }
  | max + 1, line :: pending, read, skipped =>
    match Reading.ofLine line with
    | .undecodable fault =>
      { supply := .failed (.undecodable fault), source := { pending, read, skipped } }
    | .blank => pullFrom (max + 1) pending (read + 1) skipped
    | .malformed _ =>
      let p := pullFrom (max + 1) pending (read + 1) (skipped + 1)
      { p with events := .lineSkipped (read + 1) :: p.events }
    | .transfer t => prepend t (pullFrom max pending (read + 1) skipped)

/-- The next transfers, up to a number of them. -/
def pull (max : Nat) (s : Lines) : Pull Lines := pullFrom max s.pending s.read s.skipped

instance : Source Lines where
  pull := pull
  bound s := s.pending.length + 1

end Lines

end TransferLedger
