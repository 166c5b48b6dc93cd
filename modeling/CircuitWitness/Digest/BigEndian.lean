/-! # Big-endian bytes

    Words as bytes, the most significant byte first.
-/

namespace CircuitWitness.Digest

/-- The `n` low bytes of an integer. -/
def bigEndian : (n : Nat) → Nat → List UInt8
  | 0, _ => []
  | n + 1, x => bigEndian n (x / 256) ++ [x.toUInt8]

/-- The eight bytes of a 64-bit word. -/
def bytes64 (x : Nat) : List UInt8 := bigEndian 8 x

/-- The 32-bit words that a list of bytes spells; up to three bytes at its end
    are left over. -/
def words32 : List UInt8 → List UInt32
  | a :: b :: c :: d :: rest =>
    (a.toUInt32 <<< 24 ||| b.toUInt32 <<< 16 ||| c.toUInt32 <<< 8 ||| d.toUInt32) ::
      words32 rest
  | _ => []

@[simp] theorem length_bigEndian (n x : Nat) : (bigEndian n x).length = n := by
  induction n generalizing x with
  | zero => rfl
  | succ n ih => simp [bigEndian, ih]

end CircuitWitness.Digest
