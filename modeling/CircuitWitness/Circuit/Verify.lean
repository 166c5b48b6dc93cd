import CircuitWitness.Circuit.Basic

/-! # Verification

    Judges a complete assignment of wire values: it is a witness if it has one
    value for every wire and every gate has residual zero.
-/

namespace CircuitWitness

variable {c : Curve} {k : Kind}

/-- The value of a wire in an assignment. -/
def wireValue (values : Array (Scalar c)) (w : WireId) : Except Fault (Scalar c) :=
  match values[w.index]? with
  | some v => .ok v
  | none => .error .outOfBounds

/-- The value of a term under an assignment. -/
def evalTerm (table : CoefficientTable c) (values : Array (Scalar c)) (t : Term) :
    Except Fault (Scalar c) :=
  if t.isVirtual then table.value t.coeff
  else return (← table.value t.coeff) * (← wireValue values t.wire)

/-- The value of a combination under an assignment. -/
def evalCombination (table : CoefficientTable c) (values : Array (Scalar c))
    (lc : LinearCombination) : Except Fault (Scalar c) :=
  sumTerms (evalTerm table values) lc.terms

namespace Circuit

/-- The residual of a gate of the circuit under an assignment. -/
def residual (s : Circuit c k) (values : Array (Scalar c)) (g : Gate k) :
    Except Fault (Scalar c) :=
  g.residual s.table (evalTerm s.table values)

/-- Looks for the first gate that fails, with gates counted from `index`. -/
def verifyFrom (s : Circuit c k) (values : Array (Scalar c)) (index : Nat) :
    List (Gate k) → Except (Stop VerifyError) Unit
  | [] => .ok ()
  | g :: rest => do
    let r ← s.residual values g
    if r ≠ 0 then throw (.error (.residual k index r.decimal))
    s.verifyFrom values (index + 1) rest

/-- Checks that an assignment is a witness. -/
def verify (s : Circuit c k) (values : Array (Scalar c)) : Except (Stop VerifyError) Unit := do
  if values.size ≠ s.nWires then throw (.error (.size values.size s.nWires))
  s.verifyFrom values 0 s.gates.toList

end Circuit

end CircuitWitness
