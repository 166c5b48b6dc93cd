/-! # Modular powers and inverses

    Square-and-multiply over the binary digits of the exponent, lowest digit
    first.  The result is the residue of the power, whatever the modulus.
    Modulo a prime, a power is the inverse.
-/

namespace CircuitWitness.Field

/-- The residue of `a ^ e` modulo `m`, from the `bits` lowest digits of `e`. -/
def powerLow (m : Nat) : (bits a e : Nat) → Nat
  | 0, _, _ => 1 % m
  | bits + 1, a, e =>
    let r := powerLow m bits (a * a % m) (e / 2)
    if e % 2 = 1 then a * r % m else r

/-- The residue of `a ^ e` modulo `m`. -/
def power (m a e : Nat) : Nat := powerLow m (e.log2 + 1) a e

/-- The inverse of `a` modulo the prime `q`, by Fermat's little theorem. -/
def inverse (a q : Nat) : Nat := power q a (q - 2)

end CircuitWitness.Field
