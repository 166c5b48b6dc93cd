/-! # Hint identifiers

    A circuit names the hint functions it needs by 32-bit identifiers.
-/

namespace CircuitWitness

/-- The identifier of a hint function. -/
structure HintId where
  word : UInt32
  deriving DecidableEq, Repr

namespace HintId

/-- The eight hexadecimal digits of the identifier, after `0x`. -/
def text (id : HintId) : String :=
  let digits := Nat.toDigits 16 id.word.toNat
  "0x" ++ String.ofList (List.replicate (8 - digits.length) '0' ++ digits)

end HintId

end CircuitWitness
