import CircuitWitness.Circuit.Coefficients
import CircuitWitness.Circuit.LinearCombination

/-! # Symbolic texts

    Terms and combinations as a reader sees them.  A wire is `w` and its index,
    after its coefficient and a dot; a coefficient of `1` is left out, and `-1`
    is a bare minus sign.  A virtual term is the decimal of its constant.
-/

namespace CircuitWitness

variable {c : Curve}

/-- The constant of a virtual term, `-1` by its short name. -/
def CoefficientTable.constantText (table : CoefficientTable c) (k : CoeffId) :
    Except Fault String :=
  if k = .minusOne then .ok "-1" else return (← table.value k).decimal

/-- A term with its coefficient taken from the table. -/
def Term.symbolic (table : CoefficientTable c) (t : Term) : Except Fault String :=
  if t.isVirtual then table.constantText t.coeff
  else if t.coeff = .one then .ok s!"w{t.wire.index}"
  else if t.coeff = .minusOne then .ok s!"-w{t.wire.index}"
  else return s!"{(← table.value t.coeff).decimal}⋅w{t.wire.index}"

/-- The terms of a combination as a sum. -/
def LinearCombination.symbolic (table : CoefficientTable c) (lc : LinearCombination) :
    Except Fault String :=
  if lc.terms.isEmpty then .ok "<unset>"
  else return " + ".intercalate (← lc.terms.mapM (Term.symbolic table))

end CircuitWitness
