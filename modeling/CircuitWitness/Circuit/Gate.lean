import CircuitWitness.Circuit.Coefficients
import CircuitWitness.Circuit.LinearCombination

/-! # Gates

    A circuit constrains its wires by gates of one of two kinds.  A rank-one
    gate says that the product of two linear combinations is a third.  A sparse
    gate says that three terms, a product of two terms and a constant add up to
    zero.  Either way the gate holds when its residual is zero.
-/

namespace CircuitWitness

/-- The two kinds of gates. -/
inductive Kind where
  | rankOne
  | sparse
  deriving DecidableEq, Repr

/-- The name used in messages. -/
def Kind.name : Kind → String
  | rankOne => "r1c"
  | sparse => "sparse r1c"

/-- `l ⋅ r = o`. -/
structure RankOne where
  l : LinearCombination
  r : LinearCombination
  o : LinearCombination
  deriving DecidableEq, Repr

/-- `l + r + o + m₀ ⋅ m₁ + k = 0`. -/
structure SparseGate where
  l : Term
  r : Term
  o : Term
  m₀ : Term
  m₁ : Term
  k : CoeffId
  deriving DecidableEq, Repr

/-- The gates of one kind. -/
inductive Gate : Kind → Type where
  | rankOne (g : RankOne) : Gate .rankOne
  | sparse (g : SparseGate) : Gate .sparse

variable {c : Curve}

/-- The sum of the values that `eval` gives to the terms. -/
def sumTerms (eval : Term → Except Fault (Scalar c)) (terms : List Term) :
    Except Fault (Scalar c) :=
  terms.foldlM (fun sum t => return sum + (← eval t)) 0

namespace RankOne

/-- The terms of the gate in visiting order. -/
def terms (g : RankOne) : List Term := g.l.terms ++ g.r.terms ++ g.o.terms

/-- `l ⋅ r - o`. -/
def residual (g : RankOne) (eval : Term → Except Fault (Scalar c)) :
    Except Fault (Scalar c) := do
  let l ← sumTerms eval g.l.terms
  let r ← sumTerms eval g.r.terms
  let o ← sumTerms eval g.o.terms
  return l * r - o

end RankOne

namespace SparseGate

/-- The terms of the gate in visiting order. -/
def terms (g : SparseGate) : List Term := [g.l, g.r, g.o, g.m₀, g.m₁]

/-- The left-hand side of the gate's equation. -/
def residual (table : CoefficientTable c) (g : SparseGate)
    (eval : Term → Except Fault (Scalar c)) : Except Fault (Scalar c) := do
  let l ← eval g.l
  let r ← eval g.r
  let o ← eval g.o
  let m₀ ← eval g.m₀
  let m₁ ← eval g.m₁
  return l + r + o + m₀ * m₁ + (← table.value g.k)

end SparseGate

namespace Gate

variable {k : Kind}

/-- The terms of the gate in visiting order. -/
def terms : Gate k → List Term
  | rankOne g => g.terms
  | sparse g => g.terms

/-- The coefficients that the gate uses outside of its terms. -/
def extraCoefficients : Gate k → List CoeffId
  | rankOne _ => []
  | sparse g => [g.k]

/-- What has to be zero for the gate to hold, from the values of its terms. -/
def residual (table : CoefficientTable c) (g : Gate k)
    (eval : Term → Except Fault (Scalar c)) : Except Fault (Scalar c) :=
  match g with
  | rankOne g => g.residual eval
  | sparse g => g.residual table eval

end Gate

end CircuitWitness
