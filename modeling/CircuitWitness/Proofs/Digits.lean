import CircuitWitness.Field.Scalar
import CircuitWitness.Hint.Builtin
import Mathlib.Algebra.BigOperators.Group.List.Basic
import Mathlib.Algebra.Order.Ring.Nat

/-! # Binary digits

    There are two ways to the binary digits of an integer: all the lowest at once, for a
    width that is fixed beforehand, and a single one at a position that is an input.  Both
    read the same digits (`decomposed`, `call_ithBit`).

    The digits of a width make up the integer modulo a power of two, by induction on the
    width.  A position may be no 64-bit word; it is then past all digits of an integer
    below `2 ^ UInt64.size`, which every scalar is.
-/

namespace CircuitWitness

variable {c : Curve}

/-! ## Recomposition -/

/-- What digits make up, the lowest first. -/
def recompose (bits : List Nat) : Nat := (bits.mapIdx fun i b => b * 2 ^ i).sum

theorem recompose_map_range (f : Nat → Nat) (n : Nat) :
    recompose ((List.range n).map f) = ((List.range n).map fun i => f i * 2 ^ i).sum := by
  rw [recompose]
  congr 1
  apply List.ext_getElem
  · simp
  · simp

/-- The lowest digits make up the integer modulo a power of two. -/
theorem recompose_digits (v n : Nat) :
    recompose ((List.range n).map fun i => v / 2 ^ i % 2) = v % 2 ^ n := by
  rw [recompose_map_range]
  -- one more digit counts for what the next power has over the last
  induction n with
  | zero => simp [Nat.mod_one]
  | succ n ih =>
    calc ((List.range (n + 1)).map fun i => v / 2 ^ i % 2 * 2 ^ i).sum
        = ((List.range n).map fun i => v / 2 ^ i % 2 * 2 ^ i).sum + v / 2 ^ n % 2 * 2 ^ n := by
          rw [List.range_succ, List.map_append, List.sum_append]
          simp
      _ = v % 2 ^ n + 2 ^ n * (v / 2 ^ n % 2) := by rw [ih, Nat.mul_comm]
      _ = v % 2 ^ (n + 1) := Nat.mod_pow_succ.symm

/-- `bits` are the `n` lowest binary digits of `v`, the lowest first. -/
structure AreDigits (n v : Nat) (bits : List Nat) : Prop where
  length_eq : bits.length = n
  binary : ∀ b ∈ bits, b = 0 ∨ b = 1
  recompose_eq : recompose bits = v % 2 ^ n
  recompose_eq_self_iff : recompose bits = v ↔ v < 2 ^ n
  getElem?_eq : ∀ i b, bits[i]? = some b → b = v / 2 ^ i % 2

theorem areDigits_digits (n v : Nat) :
    AreDigits n v ((List.range n).map fun i => v / 2 ^ i % 2) where
  length_eq := by simp
  binary b hb := by
    obtain ⟨i, -, rfl⟩ := List.mem_map.1 hb
    exact Nat.mod_two_eq_zero_or_one _
  recompose_eq := recompose_digits v n
  recompose_eq_self_iff := by
    rw [recompose_digits, Nat.mod_eq_iff_lt (Nat.two_pow_pos n).ne']
  getElem?_eq i b hb := by
    rw [List.getElem?_map, Option.map_eq_some_iff] at hb
    obtain ⟨j, hj, rfl⟩ := hb
    obtain ⟨_, hij⟩ := List.getElem?_eq_some_iff.1 hj
    rw [List.getElem_range] at hij
    rw [hij]

namespace HintFunction

/-! ## What the functions compute -/

/-- A decomposition fills a buffer of its width with digits, whatever the buffer held. -/
theorem call_nBits {n : Nat} (hn : n ≠ 0) (v : Nat) {held : List Nat} (hheld : held.length = n) :
    ∃ fn, nBits n = .ok fn ∧
      fn.call c [v] held = ((List.range n).map fun i => v / 2 ^ i % 2, .ok ()) := by
  refine ⟨_, if_neg hn, ?_⟩
  rw [call_ofShape (show [v].length = 1 from rfl) hheld]
  -- only the length of the buffer is used, not what it held
  have hdigits : held.mapIdx (fun i _ => binaryDigit v i) =
      (List.range n).map fun i => v / 2 ^ i % 2 := by
    apply List.ext_getElem
    · simpa using hheld
    · intro i hi hi'
      rw [List.getElem_mapIdx, List.getElem_map, List.getElem_range, binaryDigit_eq,
        Nat.shiftRight_eq_div_pow]
  exact Prod.ext hdigits rfl

/-- A position past 64 bits is past all digits of the integer. -/
theorem call_ithBit {v : Nat} (hv : v < 2 ^ UInt64.size) (i held : Nat) :
    ithBit.call c [v, i] [held] = ([v / 2 ^ i % 2], .ok ()) := by
  have hdigit : (if i < UInt64.size then binaryDigit v i else 0) = v / 2 ^ i % 2 := by
    split
    · rw [binaryDigit_eq, Nat.shiftRight_eq_div_pow]
    · -- here no digit is looked up, and there is none that could be
      rename_i hi
      have hlt : v < 2 ^ i :=
        Nat.lt_of_lt_of_le hv (Nat.pow_le_pow_right (by decide) (Nat.le_of_not_lt hi))
      rw [Nat.div_eq_of_lt hlt]
  unfold ithBit
  apply call_single_ok (show [v, i].length = 2 from rfl)
  exact congrArg Except.ok hdigit

end HintFunction

theorem Scalar.val_lt_two_pow (x : Scalar c) : x.val < 2 ^ UInt64.size := by
  have hmodulus : c.modulus < 2 ^ 256 := by cases c <;> decide
  have hpow : 2 ^ 256 ≤ 2 ^ UInt64.size := Nat.pow_le_pow_right (by decide) (by decide)
  exact Nat.lt_of_lt_of_le (Nat.lt_trans x.isLt hmodulus) hpow

/-- A decomposition into any positive number of bits gives the lowest digits, whatever the buffer
    held.  A single digit of an integer below `2 ^ UInt64.size` is read at any position, and as
    the decomposition has it. -/
theorem digits_read {n : Nat} (hn : 1 ≤ n) (c : Curve) (v : Nat) {held : List Nat}
    (hheld : held.length = n) :
    ∃ decompose bits, HintFunction.nBits n = .ok decompose ∧
      decompose.call c [v] held = (bits, .ok ()) ∧ AreDigits n v bits ∧
      (∀ x : Scalar c, x.val < 2 ^ UInt64.size) ∧
      (v < 2 ^ UInt64.size → ∀ i out,
        HintFunction.ithBit.call c [v, i] [out] = ([v / 2 ^ i % 2], .ok ()) ∧
        ∀ b, bits[i]? = some b → HintFunction.ithBit.call c [v, i] [out] = ([b], .ok ())) := by
  obtain ⟨decompose, hdecompose, hcall⟩ := HintFunction.call_nBits (c := c) (by omega) v hheld
  refine ⟨decompose, _, hdecompose, hcall, areDigits_digits n v, Scalar.val_lt_two_pow, ?_⟩
  intro hv i out
  have hread := HintFunction.call_ithBit (c := c) hv i out
  refine ⟨hread, ?_⟩
  intro b hb
  rw [hread, (areDigits_digits n v).getElem?_eq i b hb]

/-- Three bits of `13` make up `5`, and a position of 65 bits reads `0`. -/
theorem digits_read_sample :
    1 ≤ 3 ∧ [7, 7, 7].length = 3 ∧
      (∃ decompose bits, HintFunction.nBits 3 = .ok decompose ∧
        decompose.call .bn254 [13] [7, 7, 7] = (bits, .ok ()) ∧ recompose bits = 5) ∧
      HintFunction.ithBit.call .bn254 [13, 2 ^ 64] [7] = ([0], .ok ()) := by
  have hthree : 1 ≤ 3 := by decide
  have hheld : [7, 7, 7].length = 3 := rfl
  obtain ⟨decompose, bits, hdecompose, hcall, hbits, -, hread⟩ :=
    digits_read hthree .bn254 13 hheld
  have hbound : 13 < 2 ^ UInt64.size :=
    Nat.lt_of_lt_of_le (by decide : 13 < 2 ^ 4) (Nat.pow_le_pow_right (by decide) (by decide))
  -- the power is never computed: a position beyond 4 bits is enough
  have hdigit : 13 / 2 ^ (2 ^ 64) % 2 = 0 := by
    have hlt : 13 < 2 ^ (2 ^ 64) :=
      Nat.lt_of_lt_of_le (by decide : 13 < 2 ^ 4) (Nat.pow_le_pow_right (by decide) (by decide))
    rw [Nat.div_eq_of_lt hlt]
  refine ⟨hthree, hheld, ⟨decompose, bits, hdecompose, hcall, hbits.recompose_eq⟩, ?_⟩
  have hposition := (hread hbound (2 ^ 64) 7).1
  rwa [hdigit] at hposition

end CircuitWitness
