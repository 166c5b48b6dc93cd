import CircuitWitness.Digest.Sha256
import CircuitWitness.Hint.Id

/-! # Identity of hint functions

    The identifier of a hint function is the start of the hash of its name and
    its shape, so the same computation under two shapes is two functions.
-/

namespace CircuitWitness

/-- How many inputs a hint function accepts. -/
inductive Arity where
  | fixed (n : Nat)
  | any
  deriving DecidableEq, Repr

namespace Arity

/-- `n` inputs are accepted. -/
def accepts : Arity → Nat → Bool
  | fixed expected, n => expected == n
  | any, _ => true

/-- The 64-bit word that stands for the arity in an identity. -/
def code : Arity → Nat
  | fixed n => n
  | any => UInt64.size - 1

end Arity

namespace HintId

/-- The bytes that identify a name and a shape: the length of the name, the name,
    the arity and the number of outputs. -/
def encode (name : String) (arity : Arity) (nOutputs : Nat) : List UInt8 :=
  Digest.bytes64 name.utf8ByteSize ++ name.toUTF8.data.toList
    ++ Digest.bytes64 arity.code ++ Digest.bytes64 nOutputs

/-- The identifier of a name and a shape. -/
def derive (name : String) (arity : Arity) (nOutputs : Nat) : HintId :=
  ⟨(Digest.Sha256.digest (encode name arity nOutputs)).a⟩

end HintId

end CircuitWitness
