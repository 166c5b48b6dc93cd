import CircuitWitness.Field.Curve
import CircuitWitness.Field.Power

/-! # Scalars

    Elements of a curve's scalar field, held as their representative below the
    modulus.  Integers of any size enter through `Scalar.ofNat`, which reduces
    them; `Scalar.val` is the way back.
-/

namespace CircuitWitness

/-- An element of the scalar field of `c`. -/
structure Scalar (c : Curve) where
  /-- The representative. -/
  val : Nat
  isLt : val < c.modulus
  deriving DecidableEq

namespace Scalar

variable {c : Curve}

/-- The residue of an integer. -/
def ofNat (n : Nat) : Scalar c := ⟨n % c.modulus, Nat.mod_lt _ c.modulus_pos⟩

@[simp] theorem val_ofNat (n : Nat) : (ofNat n : Scalar c).val = n % c.modulus := rfl

@[simp] theorem ofNat_val (a : Scalar c) : ofNat a.val = a := by
  cases a with
  | mk val isLt => simp [ofNat, Nat.mod_eq_of_lt isLt]

@[ext] theorem ext {a b : Scalar c} (h : a.val = b.val) : a = b := by
  cases a; cases b; cases h; rfl

/-! ## Arithmetic -/

instance : Zero (Scalar c) := ⟨ofNat 0⟩

instance : One (Scalar c) := ⟨ofNat 1⟩

instance : Inhabited (Scalar c) := ⟨0⟩

instance : Add (Scalar c) := ⟨fun a b => ofNat (a.val + b.val)⟩

instance : Mul (Scalar c) := ⟨fun a b => ofNat (a.val * b.val)⟩

instance : Neg (Scalar c) := ⟨fun a => ofNat (c.modulus - a.val)⟩

instance : Sub (Scalar c) := ⟨fun a b => ofNat (a.val + (c.modulus - b.val))⟩

@[simp] theorem val_zero : (0 : Scalar c).val = 0 := Nat.zero_mod _

@[simp] theorem val_one : (1 : Scalar c).val = 1 :=
  Nat.mod_eq_of_lt (Nat.lt_of_lt_of_le (by decide) (Nat.le_of_lt c.three_lt_modulus))

theorem val_add (a b : Scalar c) : (a + b).val = (a.val + b.val) % c.modulus := rfl

theorem val_mul (a b : Scalar c) : (a * b).val = a.val * b.val % c.modulus := rfl

theorem val_neg (a : Scalar c) : (-a).val = (c.modulus - a.val) % c.modulus := rfl

theorem val_sub (a b : Scalar c) :
    (a - b).val = (a.val + (c.modulus - b.val)) % c.modulus := rfl

/-- The sum of a scalar with itself. -/
def double (a : Scalar c) : Scalar c := a + a

/-- The multiplicative inverse; zero has none. -/
def inverse? (a : Scalar c) : Option (Scalar c) :=
  if a = 0 then none else some (ofNat (Field.inverse a.val c.modulus))

@[simp] theorem inverse?_zero : (0 : Scalar c).inverse? = none := if_pos rfl

/-- The decimal digits of the representative. -/
def decimal (a : Scalar c) : String := a.val.repr

/-! ## The constants that every circuit uses -/

theorem zero_ne_one : (0 : Scalar c) ≠ 1 := fun h => by
  simpa using congrArg val h

end Scalar

end CircuitWitness
