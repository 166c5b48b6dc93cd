import CircuitWitness.Hint.Identity
import Mathlib.Algebra.Order.Ring.Nat

/-! # What identifies a hint function

    An identifier is the start of a hash, so different names or shapes may happen to have
    one identifier.  What is hashed tells names and shapes apart, up to one exception
    (`encode_eq_iff`): the word for any number of inputs is itself a number of inputs
    (`Arity.Alike`).

    The shape stands in words of a fixed width at the end, and the name stands before it.
    So the bytes can be read back from the end, and a name may well contain the bytes of a
    shape.
-/

namespace CircuitWitness

/-! ## Words -/

namespace Digest

/-- Bytes are read back one at a time, the least significant from the end. -/
theorem bigEndian_inj {n x y : Nat} (hx : x < 256 ^ n) (hy : y < 256 ^ n)
    (h : bigEndian n x = bigEndian n y) : x = y := by
  induction n generalizing x y with
  | zero => omega
  | succ n ih =>
    obtain ⟨hhigh, hlow⟩ := List.append_inj' h rfl
    rw [Nat.pow_succ, Nat.mul_comm] at hx hy
    have hquotient : x / 256 = y / 256 :=
      ih (Nat.div_lt_of_lt_mul hx) (Nat.div_lt_of_lt_mul hy) hhigh
    have hremainder : x % 256 = y % 256 := congrArg UInt8.toNat (List.cons.inj hlow).1
    omega

theorem bytes64_inj {x y : Nat} (hx : x < UInt64.size) (hy : y < UInt64.size) :
    bytes64 x = bytes64 y ↔ x = y := by
  constructor
  · intro h
    exact bigEndian_inj hx hy h
  · intro h
    rw [h]

end Digest

/-! ## Arities -/

namespace Arity

/-- The number of inputs, if it is fixed, is a 64-bit word. -/
def IsWord : Arity → Prop
  | fixed n => n < UInt64.size
  | any => True

instance : (a : Arity) → Decidable a.IsWord
  | fixed n => inferInstanceAs (Decidable (n < UInt64.size))
  | any => inferInstanceAs (Decidable True)

/-- The arities that one word stands for. -/
inductive Alike : Arity → Arity → Prop where
  | same (a : Arity) : Alike a a
  /-- The greatest number of inputs is written like any number. -/
  | greatest : Alike (fixed (UInt64.size - 1)) any
  | any : Alike any (fixed (UInt64.size - 1))

theorem code_lt {a : Arity} (h : a.IsWord) : a.code < UInt64.size := by
  cases a with
  | fixed n => exact h
  | any => exact Nat.sub_one_lt (by decide)

theorem code_eq_iff {a b : Arity} : a.code = b.code ↔ a.Alike b := by
  constructor
  · intro h
    -- a count and the lack of one have a common code at the greatest count only
    cases a with
    | fixed m =>
      cases b with
      | fixed n =>
        have hmn : m = n := h
        rw [hmn]
        exact .same _
      | any =>
        have hm : m = UInt64.size - 1 := h
        rw [hm]
        exact .greatest
    | any =>
      cases b with
      | fixed n =>
        have hn : UInt64.size - 1 = n := h
        rw [← hn]
        exact .any
      | any => exact .same _
  · intro h
    cases h with
    | same => rfl
    | greatest => rfl
    | any => rfl

end Arity

/-! ## Names and shapes -/

theorem utf8_inj {s t : String} : s.toUTF8.data.toList = t.toUTF8.data.toList ↔ s = t := by
  constructor
  · intro h
    exact String.toByteArray_inj.1 (ByteArray.ext (Array.toList_inj.1 h))
  · intro h
    rw [h]

namespace HintId

variable {name name' : String} {arity arity' : Arity} {n n' : Nat}

/-- The words of the shape are cut off at the end, the length of the name at the start. -/
theorem encode_eq_iff_bytes : encode name arity n = encode name' arity' n' ↔
    name = name' ∧ Digest.bytes64 arity.code = Digest.bytes64 arity'.code ∧
      Digest.bytes64 n = Digest.bytes64 n' := by
  have hwidth : ∀ x y, (Digest.bytes64 x).length = (Digest.bytes64 y).length := by
    intro x y
    rw [Digest.bytes64, Digest.bytes64, Digest.length_bigEndian, Digest.length_bigEndian]
  constructor
  · intro h
    obtain ⟨hrest, houtputs⟩ := List.append_inj' h (hwidth n n')
    obtain ⟨hname, harity⟩ := List.append_inj' hrest (hwidth _ _)
    exact ⟨utf8_inj.1 (List.append_inj_right hname (hwidth _ _)), harity, houtputs⟩
  · rintro ⟨rfl, harity, houtputs⟩
    rw [encode, encode, harity, houtputs]

end HintId

open HintId in
/-- The bytes of a name and a shape are those of no other name and shape, but for the two
    arities that one word stands for. -/
theorem encode_eq_iff {arity arity' : Arity} {n n' : Nat} (harity : arity.IsWord)
    (harity' : arity'.IsWord) (hn : n < UInt64.size) (hn' : n' < UInt64.size)
    (name name' : String) :
    encode name arity n = encode name' arity' n' ↔ name = name' ∧ arity.Alike arity' ∧ n = n' := by
  rw [encode_eq_iff_bytes, Digest.bytes64_inj (Arity.code_lt harity) (Arity.code_lt harity'),
    Digest.bytes64_inj hn hn', Arity.code_eq_iff]

/-- The one name goes on with the bytes of a number of inputs. -/
theorem encode_eq_iff_sample :
    (Arity.fixed 7).IsWord ∧ Arity.any.IsWord ∧ 1 < UInt64.size ∧
      HintId.encode "sum" (.fixed 7) 1 ≠
        HintId.encode "sum\x00\x00\x00\x00\x00\x00\x00\x07" .any 1 := by
  have hseven : (Arity.fixed 7).IsWord := by decide
  have hany : Arity.any.IsWord := by decide
  have hone : 1 < UInt64.size := by decide
  refine ⟨hseven, hany, hone, ?_⟩
  intro h
  obtain ⟨hname, -, -⟩ := (encode_eq_iff hseven hany hone hone _ _).1 h
  revert hname
  decide

/-- Any number of inputs and the greatest number of inputs are two arities, but a name has the
    same bytes with both, and the same identifier. -/
theorem encode_any :
    Arity.any.IsWord ∧ (Arity.fixed (UInt64.size - 1)).IsWord ∧ 1 < UInt64.size ∧
      ("sum", Arity.any, 1) ≠ ("sum", Arity.fixed (UInt64.size - 1), 1) ∧
      HintId.encode "sum" .any 1 = HintId.encode "sum" (.fixed (UInt64.size - 1)) 1 ∧
      HintId.derive "sum" .any 1 = HintId.derive "sum" (.fixed (UInt64.size - 1)) 1 := by
  have hbytes : HintId.encode "sum" .any 1 = HintId.encode "sum" (.fixed (UInt64.size - 1)) 1 := rfl
  refine ⟨by decide, by decide, by decide, by decide, hbytes, ?_⟩
  unfold HintId.derive
  rw [hbytes]

end CircuitWitness
