import CircuitWitness.Log.Render
import CircuitWitness.Solver.Search

/-! # Solving rank-one gates

    The unknown of `l ⋅ r = o` is a single occurrence of a wire.  With its term
    isolated, the gate is linear in it: in a factor it is found by dividing by
    the other factor, in the output by multiplying the factors.  If the other
    factor is zero the unknown drops out; it is then set to zero, and the gate
    holds if the output is zero.
-/

namespace CircuitWitness

variable {c : Curve}

/-- The operands of a rank-one gate. -/
inductive Operand where
  | l
  | r
  | o
  deriving DecidableEq, Repr

/-- Where a term stands in a rank-one gate. -/
structure Place where
  operand : Operand
  position : Nat
  term : Term
  deriving DecidableEq, Repr

namespace RankOne

/-- A combination of the gate. -/
def operand (g : RankOne) : Operand → LinearCombination
  | .l => g.l
  | .r => g.r
  | .o => g.o

/-- The terms of an operand with their places. -/
def operandPlaces (g : RankOne) (x : Operand) : List Place :=
  (g.operand x).terms.zipIdx.map fun (t, i) => ⟨x, i, t⟩

/-- The terms of the gate with their places, in visiting order. -/
def places (g : RankOne) : List Place :=
  g.operandPlaces .l ++ g.operandPlaces .r ++ g.operandPlaces .o

/-- The operand at a place without the term there. -/
def others (g : RankOne) (p : Place) : List Term :=
  (g.operand p.operand).terms.eraseIdx p.position

/-- The gate holds; all its wires are solved. -/
def holds (table : CoefficientTable c) (s : Solution c) (g : RankOne) : Except Fault Bool := do
  let sum := fun terms => sumTerms (s.computeTerm table) terms
  let l ← sum g.l.terms
  let r ← sum g.r.terms
  let o ← sum g.o.terms
  return l * r == o

/-- The value of `x` in `(k ⋅ x + rest) ⋅ other = o`, where `kInverse` is the
    inverse of `k`. -/
def solveFactor (kInverse rest other o : Scalar c) : Scalar c × Outcome :=
  match other.inverse? with
  | some i => ((o * i - rest) * kInverse, .satisfied)
  | none => (0, .ofBool (o == 0))

/-- The value of `x` in `l ⋅ r = k ⋅ x + rest`. -/
def solveOutput (kInverse rest l r : Scalar c) : Scalar c × Outcome :=
  ((l * r - rest) * kInverse, .satisfied)

/-- The value of the wire at a place, which holds the only unknown of the gate.
    There is none if the coefficient is zero. -/
def isolate (table : CoefficientTable c) (s : Solution c) (g : RankOne) (p : Place) :
    Except Fault (Option (Scalar c × Outcome)) := do
  let sum := fun terms => sumTerms (s.computeTerm table) terms
  match (← table.value p.term.coeff).inverse? with
  | none => return none
  | some kInverse =>
    match p.operand with
    | .l => do
      let rest ← sum (g.others p)
      let other ← sum g.r.terms
      let o ← sum g.o.terms
      return some (solveFactor kInverse rest other o)
    | .r => do
      let rest ← sum (g.others p)
      let other ← sum g.l.terms
      let o ← sum g.o.terms
      return some (solveFactor kInverse rest other o)
    | .o => do
      let l ← sum g.l.terms
      let r ← sum g.r.terms
      let rest ← sum (g.others p)
      return some (solveOutput kInverse rest l r)

/-- Refuses a gate with an unset operand. -/
def assertSet (g : RankOne) : Except Fault Unit := do
  g.l.assertSet
  g.r.assertSet
  g.o.assertSet

/-- Solves the unknown of the gate, or checks the gate if it has none. -/
def solve (ctx : Context c) (g : RankOne) : Solving c Outcome := do
  Solving.read fun _ => g.assertSet
  match ← seekUnknown ctx Place.term (fun _ _ => true) none g.places with
  | .several => return .unsolvable
  | .none => return .ofBool (← Solving.read (g.holds ctx.table))
  | .one p => settle p.term.wire (← Solving.read (g.isolate ctx.table · p))

/-- The gate with the values of its operands, and in symbols. -/
def describe (table : CoefficientTable c) (s : Solution c) (g : RankOne) :
    Except Fault String := do
  let l ← s.evaluate table g.l
  let r ← s.evaluate table g.r
  let o ← s.evaluate table g.o
  let lText ← g.l.symbolic table
  let rText ← g.r.symbolic table
  let oText ← g.o.symbolic table
  return s!"{valueText l} ⋅ {valueText r} != {valueText o} in "
    ++ s!"({lText}) ⋅ ({rText}) = {oText}"

end RankOne

end CircuitWitness
