import CircuitWitness.Assoc
import CircuitWitness.Circuit.HintMap
import CircuitWitness.Circuit.Layout

/-! # Circuits

    A compiled circuit: its layout, its constants, its gates in solving order,
    its hint calls, the lines to print after a solve, and a diagnostic for each
    gate that has one.  The operations of this module build a circuit; none of
    them checks it (see `Circuit.validate`).
-/

namespace CircuitWitness

/-- A line with `{}` placeholders, filled from the values of some terms.
    Delimiters among the terms open and close spans that are summed. -/
structure LogEntry where
  format : String
  terms : List Term
  deriving DecidableEq, Repr

/-- A compiled circuit over the scalar field of `c`, with gates of one kind. -/
structure Circuit (c : Curve) (k : Kind) where
  layout : Layout
  table : CoefficientTable c
  /-- In solving order. -/
  gates : Array (Gate k)
  hints : HintMap
  /-- Printed after every solve. -/
  logs : Array LogEntry
  /-- What to show when the gate at an index fails; every index at most once. -/
  debugInfo : List (Nat × LogEntry)

namespace Circuit

variable {c : Curve} {k : Kind}

/-- The circuit with a layout and nothing else. -/
def new (layout : Layout) : Circuit c k where
  layout := layout
  table := .new
  gates := #[]
  hints := .empty
  logs := #[]
  debugInfo := []

/-- The number of wires. -/
def nWires (s : Circuit c k) : Nat := s.layout.nWires

/-- The number of gates. -/
def nConstraints (s : Circuit c k) : Nat := s.gates.size

/-- Interns a constant. -/
def internConstant (s : Circuit c k) (v : Scalar c) : CoeffId × Circuit c k :=
  let (id, table) := s.table.insert v
  (id, { s with table })

/-- The term of an interned constant on a wire, as visible as the layout says. -/
def termAt (s : Circuit c k) (id : CoeffId) (w : WireId) : Except Fault Term :=
  match s.layout.visibility? w with
  | some v => .ok ⟨id, w, v⟩
  | none => .error (.outsideLayout w)

/-- The term of a constant on a wire.  The constant has to be interned. -/
def term (s : Circuit c k) (v : Scalar c) (w : WireId) : Except Fault Term :=
  match s.table.lookup v with
  | some id => s.termAt id w
  | none => .error (.unknownConstant v.decimal)

/-- The term of a constant on a wire.  The constant is interned even if the
    layout lacks the wire. -/
def addTerm (s : Circuit c k) (v : Scalar c) (w : WireId) : Except Fault Term × Circuit c k :=
  let (id, s) := s.internConstant v
  (s.termAt id w, s)

/-- Adds a gate at the end; its index is the former number of gates. -/
def addConstraint (s : Circuit c k) (g : Gate k) : Circuit c k :=
  { s with gates := s.gates.push g }

/-- Adds a hint call, unless one of its wires has a producer already. -/
def addHint (s : Circuit c k) (call : HintCall) : Except CircuitError (Circuit c k) :=
  return { s with hints := ← s.hints.add call }

/-- Adds a line to print. -/
def addLog (s : Circuit c k) (entry : LogEntry) : Circuit c k :=
  { s with logs := s.logs.push entry }

/-- Sets the diagnostic of the gate at an index. -/
def attachDebugInfo (s : Circuit c k) (index : Nat) (entry : LogEntry) : Circuit c k :=
  { s with debugInfo := Assoc.put s.debugInfo index entry }

/-- The diagnostic of the gate at an index. -/
def debugInfo? (s : Circuit c k) (index : Nat) : Option LogEntry := s.debugInfo.lookup index

end Circuit

end CircuitWitness
