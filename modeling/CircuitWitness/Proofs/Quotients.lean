import CircuitWitness.Hint.Builtin
import CircuitWitness.Proofs.Field.Algebra

/-! # Inverses and quotients of integers

    The builtin inverse and quotient take integers of any size and give the
    representatives of what they come to in the scalar field (`call_invZero`, `call_div`).
    The divisor is reduced before it is tested, so every multiple of the modulus counts
    as zero.

    For integers that says: a product with the inverse leaves `1` modulo the modulus
    (`IsInverse`), and the quotient is the one residue whose product with the divisor
    leaves the dividend (`IsQuotient`).
-/

namespace CircuitWitness

variable {c : Curve}

/-! ## Residues -/

namespace Scalar

theorem ofNat_eq_ofNat_iff {m n : Nat} :
    (ofNat m : Scalar c) = ofNat n ↔ m % c.modulus = n % c.modulus := by
  rw [Scalar.ext_iff, val_ofNat, val_ofNat]

theorem ofNat_eq_zero_iff {n : Nat} : (ofNat n : Scalar c) = 0 ↔ c.modulus ∣ n := by
  rw [Scalar.ext_iff, val_ofNat, val_zero, Nat.dvd_iff_mod_eq_zero]

theorem ofNat_ne_zero {n : Nat} (h : ¬c.modulus ∣ n) : (ofNat n : Scalar c) ≠ 0 := by
  intro hzero
  exact h (ofNat_eq_zero_iff.1 hzero)

theorem ofNat_mul (m n : Nat) : (ofNat (m * n) : Scalar c) = ofNat m * ofNat n := by
  apply Scalar.ext
  rw [val_mul, val_ofNat, val_ofNat, val_ofNat, Nat.mul_mod]

/-- The inverse is a power, and needs no reduction. -/
theorem val_inv {a : Scalar c} (h : a ≠ 0) : (a⁻¹).val = Field.inverse a.val c.modulus := by
  have hinverse := inverse?_of_ne_zero h
  rw [inverse?, if_neg h, Option.some.injEq] at hinverse
  rw [← hinverse, val_ofNat, Field.inverse, Field.power_eq, Nat.mod_mod]

end Scalar

namespace HintFunction

open Scalar

/-! ## What the functions compute -/

/-- The inverse of an integer is the one in the field. -/
theorem call_invZero (a held : Nat) :
    invZero.call c [a] [held] = ([((ofNat a : Scalar c)⁻¹).val], .ok ()) := by
  have hvalue : (if a % c.modulus = 0 then 0 else Field.inverse (a % c.modulus) c.modulus) =
      ((ofNat a : Scalar c)⁻¹).val := by
    -- the inverse of zero is zero by convention, which is what is written then
    split
    · rename_i hzero
      rw [ofNat_eq_zero_iff.2 (Nat.dvd_of_mod_eq_zero hzero), inv_zero, val_zero]
    · rename_i hne
      have hdvd : ¬c.modulus ∣ a := mt Nat.mod_eq_zero_of_dvd hne
      rw [val_inv (ofNat_ne_zero hdvd), val_ofNat]
  unfold invZero
  apply call_single_ok (show [a].length = 1 from rfl)
  simpa using hvalue

theorem call_div_of_dvd {b : Nat} (h : c.modulus ∣ b) (a held : Nat) :
    div.call c [a, b] [held] = ([held], .error (.undefined "division by zero")) := by
  unfold div
  apply call_single_error (show [a, b].length = 2 from rfl)
  simp [Nat.mod_eq_zero_of_dvd h]

/-- The quotient of integers is the one in the field. -/
theorem call_div {b : Nat} (h : ¬c.modulus ∣ b) (a held : Nat) :
    div.call c [a, b] [held] = ([((ofNat a : Scalar c) / ofNat b).val], .ok ()) := by
  have hne : b % c.modulus ≠ 0 := fun hzero => h (Nat.dvd_of_mod_eq_zero hzero)
  -- the dividend is not reduced before the product is
  have hvalue : a * Field.inverse (b % c.modulus) c.modulus % c.modulus =
      ((ofNat a : Scalar c) / ofNat b).val := by
    rw [div_eq_mul_inv, val_mul, val_inv (ofNat_ne_zero h), val_ofNat, val_ofNat,
      Nat.mod_mul_mod]
  unfold div
  apply call_single_ok (show [a, b].length = 2 from rfl)
  simpa [hne] using hvalue

end HintFunction

/-! ## Integers -/

/-- `x` is the residue that undoes a multiplication by `a`, and zero if `a` leaves none. -/
structure IsInverse (c : Curve) (a x : Nat) : Prop where
  lt : x < c.modulus
  eq_zero : c.modulus ∣ a → x = 0
  mul_mod : ¬c.modulus ∣ a → x * a % c.modulus = 1
  ofNat_eq : (Scalar.ofNat x : Scalar c) = (.ofNat a)⁻¹

/-- `x` is the one residue that leaves `a` when it is multiplied by `b`. -/
structure IsQuotient (c : Curve) (a b x : Nat) : Prop where
  lt : x < c.modulus
  mul_mod : x * b % c.modulus = a % c.modulus
  unique : ∀ y < c.modulus, y * b % c.modulus = a % c.modulus → y = x
  ofNat_eq : (Scalar.ofNat x : Scalar c) = .ofNat a / .ofNat b

open Scalar in
theorem isInverse_inv (a : Nat) : IsInverse c a ((ofNat a : Scalar c)⁻¹).val where
  lt := Scalar.isLt _
  eq_zero h := by rw [ofNat_eq_zero_iff.2 h, inv_zero, val_zero]
  mul_mod h := by
    have hone := congrArg val (inv_mul_cancel₀ (ofNat_ne_zero h))
    rwa [val_mul, val_ofNat, Nat.mul_mod_mod, val_one] at hone
  ofNat_eq := ofNat_val _

open Scalar in
theorem isQuotient_div {b : Nat} (h : ¬c.modulus ∣ b) (a : Nat) :
    IsQuotient c a b ((ofNat a : Scalar c) / ofNat b).val := by
  have hne : (ofNat b : Scalar c) ≠ 0 := ofNat_ne_zero h
  refine ⟨Scalar.isLt _, ?_, ?_, ofNat_val _⟩
  · rw [← ofNat_eq_ofNat_iff (c := c), ofNat_mul, ofNat_val, div_mul_cancel₀ _ hne]
  · -- a product with the divisor has one other factor
    intro y hlt hy
    rw [← ofNat_eq_ofNat_iff (c := c), ofNat_mul, ← eq_div_iff hne] at hy
    rw [← hy, val_ofNat, Nat.mod_eq_of_lt hlt]

/-- Whatever the output held, the inverse is computed, and the quotient is computed unless the
    divisor is a multiple of the modulus; in that case the output stays as it was. -/
theorem quotients_computed (c : Curve) (a b held : Nat) :
    (∃ x, HintFunction.invZero.call c [a] [held] = ([x], .ok ()) ∧ IsInverse c a x) ∧
      (HintFunction.div.call c [a, b] [held] = ([held], .error (.undefined "division by zero")) ↔
        c.modulus ∣ b) ∧
      (¬c.modulus ∣ b →
        ∃ x, HintFunction.div.call c [a, b] [held] = ([x], .ok ()) ∧ IsQuotient c a b x) := by
  -- the divisor is zero in the field if the modulus divides it, and else it is a unit
  refine ⟨⟨_, HintFunction.call_invZero a held, isInverse_inv a⟩, ⟨?_, ?_⟩, ?_⟩
  · intro hcall
    by_contra h
    rw [HintFunction.call_div h] at hcall
    cases hcall
  · intro h
    exact HintFunction.call_div_of_dvd h a held
  · intro h
    exact ⟨_, HintFunction.call_div h a held, isQuotient_div h a⟩

/-- A divisor above the modulus counts as its residue. -/
theorem quotients_computed_sample :
    ¬Curve.bls12_381.modulus ∣ 6 + Curve.bls12_381.modulus ∧
      HintFunction.div.call .bls12_381 [42, 6 + Curve.bls12_381.modulus] [5] = ([7], .ok ()) := by
  have hdivisor : ¬Curve.bls12_381.modulus ∣ 6 + Curve.bls12_381.modulus := by decide
  obtain ⟨-, -, hquotient⟩ := quotients_computed .bls12_381 42 (6 + Curve.bls12_381.modulus) 5
  obtain ⟨x, hcall, hx⟩ := hquotient hdivisor
  have hseven : 7 = x := hx.unique 7 (by decide) (by decide)
  rw [← hseven] at hcall
  exact ⟨hdivisor, hcall⟩

end CircuitWitness
