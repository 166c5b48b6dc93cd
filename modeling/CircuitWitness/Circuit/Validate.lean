import CircuitWitness.Circuit.Basic

/-! # Well-formed circuits

    `Circuit.validate` accepts a circuit if it has the one wire, if every term
    outside of a delimiter has a known coefficient and, unless it is virtual, a
    wire of the layout that is tagged as the layout says, if hints produce
    internal wires only, and if diagnostics belong to gates.  The first defect
    in the order of the checks is reported: gates, hint calls, logs, diagnostics.
-/

namespace CircuitWitness.Circuit

variable {c : Curve} {k : Kind}

/-- Checks a reference to a constant. -/
def validateCoeff (s : Circuit c k) (location : Location) (index : Nat) (id : CoeffId) :
    Except CircuitError Unit :=
  if s.table.isValid id then .ok ()
  else .error (.unknownCoefficient location index id s.table.size)

/-- Checks a term: its coefficient, then its wire, then its visibility. -/
def validateTerm (s : Circuit c k) (location : Location) (index : Nat) (t : Term) :
    Except CircuitError Unit := do
  s.validateCoeff location index t.coeff
  -- the wire of a virtual term has no meaning
  if t.isVirtual then return
  match s.layout.visibility? t.wire with
  | none => throw (.outOfRangeWire location index t.wire s.nWires)
  | some expected =>
    if expected ≠ t.visibility then
      throw (.visibilityMismatch location index t.wire expected t.visibility)

/-- Checks a gate: its terms, then its other constants. -/
def validateGate (s : Circuit c k) (index : Nat) (g : Gate k) : Except CircuitError Unit := do
  g.terms.forM (s.validateTerm (.gate k) index)
  g.extraCoefficients.forM (s.validateCoeff (.gate k) index)

/-- Checks that a wire can be the output of a hint. -/
def validateOutput (s : Circuit c k) (index : Nat) (w : WireId) : Except CircuitError Unit :=
  match s.layout.visibility? w with
  | none => .error (.outOfRangeWire .hintOutput index w s.nWires)
  | some .internal => .ok ()
  | some _ => .error (.hintOutputIsInput w)

/-- Checks a hint call: the terms of its inputs, then its outputs. -/
def validateCall (s : Circuit c k) (index : Nat) (call : HintCall) : Except CircuitError Unit := do
  (call.inputs.flatMap LinearCombination.terms).forM (s.validateTerm .hintInput index)
  call.wires.forM (s.validateOutput index)

/-- Checks the terms of an entry; delimiters are no terms. -/
def validateEntry (s : Circuit c k) (location : Location) (index : Nat) (entry : LogEntry) :
    Except CircuitError Unit :=
  (entry.terms.filter fun t => !t.isDelimiter).forM (s.validateTerm location index)

/-- Checks a diagnostic: its gate, then its terms. -/
def validateDebugInfo (s : Circuit c k) (index : Nat) (entry : LogEntry) :
    Except CircuitError Unit := do
  if s.nConstraints ≤ index then throw (.debugInfoOutOfRange index s.nConstraints)
  s.validateEntry .debugInfo index entry

/-- Reports the first defect of the circuit. -/
def validate (s : Circuit c k) : Except CircuitError Unit := do
  if s.layout.nPublic = 0 then throw .missingOneWire
  s.gates.toList.zipIdx.forM fun (g, i) => s.validateGate i g
  s.hints.calls.zipIdx.forM fun (call, i) => s.validateCall i call
  s.logs.toList.zipIdx.forM fun (entry, i) => s.validateEntry .log i entry
  s.debugInfo.forM fun (index, entry) => s.validateDebugInfo index entry

end CircuitWitness.Circuit
