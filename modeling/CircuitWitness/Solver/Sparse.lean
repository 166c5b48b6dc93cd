import CircuitWitness.Log.Render
import CircuitWitness.Solver.Search

/-! # Solving sparse gates

    The unknown of a sparse gate is a wire, which may stand in several of its
    terms.  The residual is affine in the wire unless it stands in both factors
    of the product.  Its two coefficients are read off the residuals at zero and
    one.  If the wire drops out it is set to zero, and the gate holds if the rest
    cancels.
-/

namespace CircuitWitness

variable {c : Curve}

namespace SparseGate

/-- The residual on the solved wires. -/
def residualOf (table : CoefficientTable c) (s : Solution c) (g : SparseGate) :
    Except Fault (Scalar c) :=
  g.residual table (s.computeTerm table)

/-- The residual with `x` on the unsolved wires. -/
def residualAt (table : CoefficientTable c) (s : Solution c) (g : SparseGate) (x : Scalar c) :
    Except Fault (Scalar c) :=
  g.residual table fun t => do
    match ← s.computeKnown table t with
    | some v => return v
    | none => return (← table.value t.coeff) * x

/-- The zero of an affine function, from its values at zero and one. -/
def solveAffine (atZero atOne : Scalar c) : Scalar c × Outcome :=
  match (atOne - atZero).inverse? with
  | some i => (-atZero * i, .satisfied)
  | none => (0, .ofBool (atZero == 0))

/-- A term holds the unknown wire `w`. -/
def holdsUnknown (s : Solution c) (w : WireId) (t : Term) : Except Fault Bool :=
  return !(← s.isKnown t) && t.wire == w

/-- The value of the wire `w`, which is the only unknown of the gate.  There is
    none if the gate is quadratic in it. -/
def isolate (table : CoefficientTable c) (s : Solution c) (g : SparseGate) (w : WireId) :
    Except Fault (Option (Scalar c × Outcome)) := do
  -- a square of the unknown is not affine in it
  if (← holdsUnknown s w g.m₀) && (← holdsUnknown s w g.m₁) then return none
  let atZero ← g.residualAt table s 0
  let atOne ← g.residualAt table s 1
  return some (solveAffine atZero atOne)

/-- Solves the unknown of the gate, or checks the gate if it has none. -/
def solve (ctx : Context c) (g : SparseGate) : Solving c Outcome := do
  match ← seekUnknown ctx id (fun a b => a.wire != b.wire) none g.terms with
  | .several => return .unsolvable
  | .none => return .ofBool ((← Solving.read (g.residualOf ctx.table)) == 0)
  | .one t => settle t.wire (← Solving.read (g.isolate ctx.table · t.wire))

/-- The five terms and the constant of the gate, each in a text of its own. -/
def equationText (terms : Vector String 5) (k : String) : String :=
  s!"{terms[0]} + {terms[1]} + {terms[2]} + {terms[3]} ⋅ {terms[4]} + {k}"

/-- The gate with the values of its terms, and in symbols. -/
def describe (table : CoefficientTable c) (s : Solution c) (g : SparseGate) :
    Except Fault String := do
  let terms := #v[g.l, g.r, g.o, g.m₀, g.m₁]
  let k := (← table.value g.k).decimal
  let values ← terms.mapM fun t => return valueText (← s.computeKnown table t)
  let symbols ← terms.mapM (Term.symbolic table)
  return s!"{equationText values k} != 0 in {equationText symbols k} = 0"

end SparseGate

end CircuitWitness
