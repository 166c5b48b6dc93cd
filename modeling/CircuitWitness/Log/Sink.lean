import CircuitWitness.Log.Render
import CircuitWitness.Text.Utf8

/-! # Sinks

    Where the lines of a solve go.  A sink may be limited: it takes bytes until
    it is full, and the line that does not fit is cut.  Nothing is written after
    that.
-/

namespace CircuitWitness

/-- Takes bytes up to a limit. -/
structure Sink where
  /-- How many bytes are taken in all; `none` if any number is. -/
  limit : Option Nat
  /-- The bytes taken so far. -/
  accepted : Array UInt8

namespace Sink

/-- Takes everything. -/
def unlimited : Sink := ⟨none, #[]⟩

/-- Takes a number of bytes. -/
def ofLimit (limit : Option Nat) : Sink := ⟨limit, #[]⟩

instance : Inhabited Sink := ⟨unlimited⟩

/-- How many of `n` more bytes are taken. -/
def room (s : Sink) (n : Nat) : Nat :=
  match s.limit with
  | none => n
  | some limit => min n (limit - s.accepted.size)

/-- Writes as much of a text as the sink takes, and says whether that was all. -/
def write (s : Sink) (text : String) : Bool × Sink :=
  let bytes := Text.bytes text
  let taken := s.room bytes.size
  (taken == bytes.size, { s with accepted := s.accepted ++ bytes.extract 0 taken })

/-- The text taken so far. -/
def text (s : Sink) : String := Text.readCut s.accepted

/-- The reason for which a sink takes no more. -/
def fullText : String := "sink is full"

end Sink

namespace Solution

variable {c : Curve}

/-- Writes the lines of entries one after another, and says whether the sink took
    all of them.  A line is rendered only when the lines before it were taken. -/
def printLogs (table : CoefficientTable c) (s : Solution c) :
    List LogEntry → Sink → Except Fault Bool × Sink
  | [], sink => (.ok true, sink)
  | entry :: rest, sink =>
    match s.render table entry with
    | .error f => (.error f, sink)
    | .ok line =>
      match sink.write (line ++ "\n") with
      | (true, sink) => s.printLogs table rest sink
      | (false, sink) => (.ok false, sink)

end Solution

end CircuitWitness
