import CircuitWitness.Circuit.Symbolic
import CircuitWitness.Circuit.Basic
import CircuitWitness.Log.Fill
import CircuitWitness.Solver.Solution

/-! # Rendering entries

    Log lines and diagnostics are rendered from whatever is solved at the time.
    Outside of a span every term gives its own pieces: a virtual term its
    constant, any other its coefficient, unless that is `1` or `-1`, and then
    the value of its wire.  A span gives one piece, the sum of its terms, and is
    closed by the next delimiter or by the end of the entry.
-/

namespace CircuitWitness

variable {c : Curve}

/-- What stands in for a value that is not there yet. -/
def unsolvedText : String := "<unsolved>"

/-- The decimal of a value, if there is one. -/
def valueText : Option (Scalar c) → String
  | some v => v.decimal
  | none => unsolvedText

namespace Solution

/-- Adds a term to the sum of a span.  A sum that has met an unsolved wire has no
    value any more. -/
def addToSpan (table : CoefficientTable c) (s : Solution c) (sum : Option (Scalar c))
    (t : Term) : Except Fault (Option (Scalar c)) := do
  match sum, ← s.isKnown t with
  | some v, true => return some (v + (← s.computeTerm table t))
  | _, _ => return none

/-- The pieces of a term outside of a span. -/
def termPieces (table : CoefficientTable c) (s : Solution c) (t : Term) :
    Except Fault (List String) := do
  if t.isVirtual then return [← table.constantText t.coeff]
  let coefficient ← if t.coeff.isUnit then pure [] else
    pure [(← table.value t.coeff).decimal]
  return coefficient ++ [valueText (← s.value t.wire)]

/-- The pieces of the terms of an entry, from inside of a span or outside of one. -/
def pieces (table : CoefficientTable c) (s : Solution c) :
    (span : Option (Option (Scalar c))) → List Term → Except Fault (List String)
  | none, [] => .ok []
  | some sum, [] => .ok [valueText sum]
  | none, t :: rest =>
    if t.isDelimiter then s.pieces table (some (some 0)) rest
    else return (← s.termPieces table t) ++ (← s.pieces table none rest)
  | some sum, t :: rest =>
    if t.isDelimiter then return valueText sum :: (← s.pieces table none rest)
    else do
      let sum ← s.addToSpan table sum t
      s.pieces table (some sum) rest

/-- The line of an entry. -/
def render (table : CoefficientTable c) (s : Solution c) (entry : LogEntry) :
    Except Fault String :=
  return Log.fillText entry.format (← s.pieces table none entry.terms)

end Solution

end CircuitWitness
