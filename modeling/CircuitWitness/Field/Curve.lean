/-! # Curves

    Witnesses are computed over the scalar field of one of two pairing-friendly
    curves.  A curve stands for that field: it fixes the modulus and the name
    under which the field is shown.
-/

namespace CircuitWitness

/-- The curve whose scalar field wire values live in. -/
inductive Curve where
  | bn254
  | bls12_381
  deriving DecidableEq, Repr, Ord

namespace Curve

/-- The name a curve is shown under. -/
def name : Curve → String
  | bn254 => "bn254"
  | bls12_381 => "bls12_381"

/-- The order of the curve's scalar field. -/
def modulus : Curve → Nat
  | bn254 => 21888242871839275222246405745257275088548364400416034343698204186575808495617
  | bls12_381 => 52435875175126190479447740508185965837690552500527637822603658699938581184513

/-- The curve that this one is not. -/
def other : Curve → Curve
  | bn254 => bls12_381
  | bls12_381 => bn254

/-- `0`, `1`, `2` and `-1` are four different residues. -/
theorem three_lt_modulus (c : Curve) : 3 < c.modulus := by
  cases c <;> decide

theorem modulus_pos (c : Curve) : 0 < c.modulus := by
  have := c.three_lt_modulus
  omega

end Curve

end CircuitWitness
