import CircuitWitness.Field.Power
import CircuitWitness.Hint.Function

/-! # Builtin hint functions

    The zero test, the inverse and the quotient in the scalar field, and the
    binary digits of an integer.
-/

namespace CircuitWitness

/-- The binary digit of `x` at a position, counted from the lowest. -/
def binaryDigit (x i : Nat) : Nat := if x.log2 < i then 0 else (x >>> i) % 2

/-- The digits past the highest are zero, so that they need no case of their own. -/
theorem binaryDigit_eq (x i : Nat) : binaryDigit x i = (x >>> i) % 2 := by
  unfold binaryDigit
  split
  · rename_i h
    have : x < 2 ^ i :=
      Nat.lt_of_lt_of_le Nat.lt_log2_self (Nat.pow_le_pow_right (by decide) h)
    rw [Nat.shiftRight_eq_div_pow, Nat.div_eq_of_lt this]
  · rfl

namespace HintFunction

/-- `1` if the input is `0`, and `0` if it is not. -/
def isZero : HintFunction :=
  ofShape "is_zero" 1 1 <| .single fun _ inputs =>
    .ok (if inputs.getD 0 0 = 0 then 1 else 0)

/-- The binary digit of the first input at the position that the second gives.
    A position that is no 64-bit word is past the digits of any field element. -/
def ithBit : HintFunction :=
  ofShape "ith_bit" 2 1 <| .single fun _ inputs =>
    let i := inputs.getD 1 0
    .ok (if i < UInt64.size then binaryDigit (inputs.getD 0 0) i else 0)

/-- The inverse of the input in the scalar field, and `0` for zero. -/
def invZero : HintFunction :=
  ofShape "inv_zero" 1 1 <| .single fun curve inputs =>
    let a := inputs.getD 0 0 % curve.modulus
    .ok (if a = 0 then 0 else Field.inverse a curve.modulus)

/-- The quotient of the inputs in the scalar field; there is none by zero. -/
def div : HintFunction :=
  ofShape "div" 2 1 <| .single fun curve inputs =>
    let b := inputs.getD 1 0 % curve.modulus
    if b = 0 then .error (.undefined "division by zero")
    else .ok (inputs.getD 0 0 * Field.inverse b curve.modulus % curve.modulus)

/-- The `n` lowest binary digits of the input, the lowest first.  Every width is a
    function of its own. -/
def nBits (n : Nat) : Except Fault HintFunction :=
  if n = 0 then .error .noBits
  else .ok <| ofShape s!"n_bits_{n}" 1 n <| .fill fun _ inputs i =>
    binaryDigit (inputs.getD 0 0) i

/-- The functions that need no declaration, in the order in which they are registered. -/
def builtins : List HintFunction := [isZero, ithBit, invZero, div]

end HintFunction

end CircuitWitness
