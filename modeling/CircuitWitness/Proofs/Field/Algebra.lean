import CircuitWitness.Field.Scalar
import CircuitWitness.Proofs.Field.Primality
import Mathlib.Algebra.Field.Basic
import Mathlib.FieldTheory.Finite.Basic

/-! # The scalars are a field

    The arithmetic of residues satisfies the laws of a commutative ring for any
    modulus.  That a scalar other than zero has the inverse that `inverse?`
    computes needs the modulus to be prime.
-/

namespace CircuitWitness.Scalar

variable {c : Curve}

/-! ## Ring laws -/

theorem add_comm_val (a b : Scalar c) : a + b = b + a := by
  apply Scalar.ext
  rw [val_add, val_add, Nat.add_comm]

theorem mul_comm_val (a b : Scalar c) : a * b = b * a := by
  apply Scalar.ext
  rw [val_mul, val_mul, Nat.mul_comm]

theorem add_assoc_val (a b d : Scalar c) : a + b + d = a + (b + d) := by
  apply Scalar.ext
  simp only [val_add, Nat.mod_add_mod, Nat.add_mod_mod, Nat.add_assoc]

theorem mul_assoc_val (a b d : Scalar c) : a * b * d = a * (b * d) := by
  apply Scalar.ext
  simp only [val_mul, Nat.mod_mul_mod, Nat.mul_mod_mod, Nat.mul_assoc]

theorem mul_add_val (a b d : Scalar c) : a * (b + d) = a * b + a * d := by
  apply Scalar.ext
  simp only [val_mul, val_add, Nat.mul_mod_mod, Nat.mod_add_mod, Nat.add_mod_mod, Nat.mul_add]

theorem zero_add_val (a : Scalar c) : 0 + a = a := by
  apply Scalar.ext
  rw [val_add, val_zero, Nat.zero_add, Nat.mod_eq_of_lt a.isLt]

theorem one_mul_val (a : Scalar c) : 1 * a = a := by
  apply Scalar.ext
  rw [val_mul, val_one, Nat.one_mul, Nat.mod_eq_of_lt a.isLt]

theorem zero_mul_val (a : Scalar c) : 0 * a = 0 := by
  apply Scalar.ext
  rw [val_mul, val_zero, Nat.zero_mul, Nat.zero_mod]

theorem neg_add_val (a : Scalar c) : -a + a = 0 := by
  apply Scalar.ext
  have hlt := a.isLt
  rw [val_add, val_neg, val_zero, Nat.mod_add_mod, Nat.sub_add_cancel (Nat.le_of_lt hlt),
    Nat.mod_self]

theorem sub_eq_add_neg_val (a b : Scalar c) : a - b = a + -b := by
  apply Scalar.ext
  rw [val_sub, val_add, val_neg, Nat.add_mod_mod]

theorem ofNat_succ (n : Nat) : (ofNat (n + 1) : Scalar c) = ofNat n + 1 := by
  apply Scalar.ext
  rw [val_add, val_ofNat, val_ofNat, val_one, Nat.mod_add_mod]

/-- The scalars are a commutative ring; an integer stands for its residue. -/
instance : CommRing (Scalar c) where
  add_assoc := add_assoc_val
  zero_add := zero_add_val
  add_zero a := by rw [add_comm_val, zero_add_val]
  add_comm := add_comm_val
  nsmul := nsmulRec
  zsmul := zsmulRec
  neg_add_cancel := neg_add_val
  sub_eq_add_neg := sub_eq_add_neg_val
  mul_assoc := mul_assoc_val
  one_mul := one_mul_val
  mul_one a := by rw [mul_comm_val, one_mul_val]
  mul_comm := mul_comm_val
  left_distrib := mul_add_val
  right_distrib a b d := by rw [mul_comm_val, mul_add_val, mul_comm_val d a, mul_comm_val d b]
  zero_mul := zero_mul_val
  mul_zero a := by rw [mul_comm_val, zero_mul_val]
  natCast := ofNat
  natCast_zero := rfl
  natCast_succ := ofNat_succ

/-! ## Inverses -/

/-- Fermat's little theorem, for the power that `Field.inverse` computes. -/
theorem inverse_mul_mod {a : Nat} (h : ¬c.modulus ∣ a) :
    CircuitWitness.Field.inverse a c.modulus * a % c.modulus = 1 := by
  have hprime := c.prime_modulus
  have hlt := c.three_lt_modulus
  have hcoprime : Nat.Coprime a c.modulus := (hprime.coprime_iff_not_dvd.2 h).symm
  have hfermat := Nat.ModEq.pow_totient hcoprime
  rw [Nat.totient_prime hprime] at hfermat
  rw [Field.inverse, Field.power_eq, Nat.mod_mul_mod, ← pow_succ,
    show c.modulus - 2 + 1 = c.modulus - 1 by omega]
  rw [Nat.ModEq, Nat.mod_eq_of_lt (show 1 < c.modulus by omega)] at hfermat
  exact hfermat

theorem not_dvd_val {a : Scalar c} (h : a ≠ 0) : ¬c.modulus ∣ a.val := by
  intro hdvd
  have hzero : a.val = 0 := Nat.eq_zero_of_dvd_of_lt hdvd a.isLt
  exact h (Scalar.ext (by rw [hzero, val_zero]))

/-- `inverse?` gives the inverse, and gives none for zero only. -/
theorem inverse?_eq_some_iff {a i : Scalar c} : a.inverse? = some i ↔ a * i = 1 := by
  constructor
  · intro h
    unfold inverse? at h
    split at h
    · cases h
    · rename_i hne
      cases h
      apply Scalar.ext
      rw [val_mul, val_ofNat, val_one, Nat.mul_mod_mod, Nat.mul_comm]
      exact inverse_mul_mod (not_dvd_val hne)
  · intro h
    have hne : a ≠ 0 := by
      intro hzero
      rw [hzero, zero_mul] at h
      exact zero_ne_one h
    have hinv : a * ofNat (Field.inverse a.val c.modulus) = 1 := by
      apply Scalar.ext
      rw [val_mul, val_ofNat, val_one, Nat.mul_mod_mod, Nat.mul_comm]
      exact inverse_mul_mod (not_dvd_val hne)
    rw [inverse?, if_neg hne, Option.some.injEq]
    -- two inverses of one scalar are the same
    calc ofNat (Field.inverse a.val c.modulus)
        = a * i * ofNat (Field.inverse a.val c.modulus) := by rw [h, one_mul]
      _ = i * (a * ofNat (Field.inverse a.val c.modulus)) := by ring
      _ = i := by rw [hinv, mul_one]

theorem inverse?_eq_none_iff {a : Scalar c} : a.inverse? = none ↔ a = 0 := by
  unfold inverse?
  split <;> simp_all

/-- The scalars are a field, with `0` for the inverse of zero. -/
instance : Field (Scalar c) where
  inv a := a.inverse?.getD 0
  exists_pair_ne := ⟨0, 1, zero_ne_one⟩
  mul_inv_cancel a h := by
    cases hi : a.inverse? with
    | none => exact absurd (inverse?_eq_none_iff.1 hi) h
    | some i => exact inverse?_eq_some_iff.1 hi
  inv_zero := rfl
  nnqsmul := _
  nnqsmul_def := fun _ _ => rfl
  qsmul := _
  qsmul_def := fun _ _ => rfl

theorem inverse?_of_ne_zero {a : Scalar c} (h : a ≠ 0) : a.inverse? = some a⁻¹ :=
  inverse?_eq_some_iff.2 (mul_inv_cancel₀ h)

@[simp] theorem double_eq (a : Scalar c) : a.double = 2 * a := by
  rw [double, two_mul]

end CircuitWitness.Scalar
