import CircuitWitness.Circuit.Layout

/-! # Layouts in machine words

    The counts of a layout are 64-bit words, whose sums wrap around, and a wire is
    a 32-bit word, of which a position keeps the low bits.  `WordLayout` computes
    with them as a machine does, while `Layout` computes with integers of any size.
    The two agree on a small layout, whose wires all have numbers of 32 bits.

    Once sums have wrapped around, the classes of wires are no longer as long as the
    counts say; but they are still the classes of some layout
    (`WordLayout.visibility?_classes`), and that is the layout of the circuit.
-/

namespace CircuitWitness

/-- The wire that is numbered with the low 32 bits of a position. -/
def WireId.ofWord (i : UInt64) : WireId := ⟨i.toUInt32.toNat⟩

theorem WireId.ofWord_eq {i : UInt64} (h : i.toNat < UInt32.size) : ofWord i = ⟨i.toNat⟩ := by
  rw [ofWord, UInt64.toNat_toUInt32, Nat.mod_eq_of_lt h]

/-- How many wires there are of each visibility, as machine words. -/
structure WordLayout where
  /-- The one wire included. -/
  nPublic : UInt64
  nSecret : UInt64
  nInternal : UInt64
  deriving DecidableEq, Repr

namespace WordLayout

/-- The number of wires. -/
def nWires (l : WordLayout) : UInt64 := l.nPublic + l.nSecret + l.nInternal

/-- The number of values that the caller supplies. -/
def nInputs (l : WordLayout) : UInt64 :=
  (if l.nPublic = 0 then 0 else l.nPublic - 1) + l.nSecret

/-- How a wire of the layout is visible. -/
def visibility? (l : WordLayout) (w : WireId) : Option Visibility :=
  if w.index < l.nPublic.toNat then some .pub
  else if w.index < (l.nPublic + l.nSecret).toNat then some .secret
  else if w.index < l.nWires.toNat then some .internal
  else none

/-- The public wire at a position; the one wire is at position `0`. -/
def publicWire (l : WordLayout) (i : UInt64) : Except Fault WireId :=
  if i < l.nPublic then .ok (.ofWord i) else .error (.noSuchWire .pub i.toNat)

/-- The secret wire at a position. -/
def secretWire (l : WordLayout) (i : UInt64) : Except Fault WireId :=
  if i < l.nSecret then .ok (.ofWord (l.nPublic + i)) else .error (.noSuchWire .secret i.toNat)

/-- The internal wire at a position. -/
def internalWire (l : WordLayout) (i : UInt64) : Except Fault WireId :=
  if i < l.nInternal then .ok (.ofWord (l.nPublic + l.nSecret + i))
  else .error (.noSuchWire .internal i.toNat)

/-! ## The classes of wires -/

/-- The layout that has the counts as they are. -/
def exact (l : WordLayout) : Layout := ⟨l.nPublic.toNat, l.nSecret.toNat, l.nInternal.toNat⟩

/-- The layout with the classes that wires fall into.  A class that would end before the one
    before it does is empty. -/
def classes (l : WordLayout) : Layout :=
  let secretEnd := (l.nPublic + l.nSecret).toNat
  ⟨l.nPublic.toNat, secretEnd - l.nPublic.toNat,
    l.nWires.toNat - max l.nPublic.toNat secretEnd⟩

/-- Wires are as visible as in the layout of their classes, whether or not sums wrapped
    around. -/
theorem visibility?_classes (l : WordLayout) (w : WireId) :
    l.classes.visibility? w = l.visibility? w := by
  unfold Layout.visibility? visibility? Layout.nWires classes
  simp only
  -- the ends of the classes are compared one after another
  generalize l.nPublic.toNat = p
  generalize (l.nPublic + l.nSecret).toNat = q
  by_cases hp : w.index < p
  · rw [if_pos hp, if_pos hp]
  · rw [if_neg hp, if_neg hp]
    by_cases hq : w.index < q
    · rw [if_pos (by omega), if_pos hq]
    · rw [if_neg (by omega), if_neg hq]
      by_cases hn : w.index < l.nWires.toNat
      · rw [if_pos (by omega), if_pos hn]
      · rw [if_neg (by omega), if_neg hn]

/-! ## Small layouts -/

/-- Every wire has a number of 32 bits. -/
def Small (l : WordLayout) : Prop := l.exact.nWires < UInt32.size

instance (l : WordLayout) : Decidable l.Small := inferInstanceAs (Decidable (_ < _))

section Small

variable {l : WordLayout}

theorem Small.add_lt (h : l.Small) :
    l.nPublic.toNat + l.nSecret.toNat + l.nInternal.toNat < 4294967296 := h

theorem Small.ofWord_eq (h : l.Small) {i : UInt64}
    (hi : i.toNat < l.nPublic.toNat + l.nSecret.toNat + l.nInternal.toNat) :
    WireId.ofWord i = ⟨i.toNat⟩ :=
  WireId.ofWord_eq (Nat.lt_trans hi h)

theorem Small.toNat_add (h : l.Small) :
    (l.nPublic + l.nSecret).toNat = l.nPublic.toNat + l.nSecret.toNat := by
  have hlt := h.add_lt
  rw [UInt64.toNat_add, Nat.mod_eq_of_lt (by omega)]

theorem Small.toNat_nWires (h : l.Small) : l.nWires.toNat = l.exact.nWires := by
  have hlt := h.add_lt
  rw [nWires, UInt64.toNat_add, h.toNat_add, Nat.mod_eq_of_lt (by omega)]
  rfl

theorem Small.classes_eq (h : l.Small) : l.classes = l.exact := by
  have hwires : l.exact.nWires = l.nPublic.toNat + l.nSecret.toNat + l.nInternal.toNat := rfl
  unfold classes exact
  simp only [h.toNat_add, h.toNat_nWires, hwires, Layout.mk.injEq, true_and]
  omega

theorem Small.visibility?_eq (h : l.Small) (w : WireId) :
    l.visibility? w = l.exact.visibility? w := by
  rw [← visibility?_classes, h.classes_eq]

theorem Small.publicWire_eq (h : l.Small) (i : UInt64) :
    l.publicWire i = l.exact.publicWire i.toNat := by
  have hlt := h.add_lt
  unfold publicWire Layout.publicWire exact
  simp only [UInt64.lt_iff_toNat_lt]
  split
  · rw [h.ofWord_eq (by omega)]
  · rfl

theorem Small.secretWire_eq (h : l.Small) (i : UInt64) :
    l.secretWire i = l.exact.secretWire i.toNat := by
  have hlt := h.add_lt
  unfold secretWire Layout.secretWire exact
  simp only [UInt64.lt_iff_toNat_lt]
  split
  · have hadd : (l.nPublic + i).toNat = l.nPublic.toNat + i.toNat := by
      rw [UInt64.toNat_add, Nat.mod_eq_of_lt (by omega)]
    rw [h.ofWord_eq (by omega), hadd]
  · rfl

theorem Small.internalWire_eq (h : l.Small) (i : UInt64) :
    l.internalWire i = l.exact.internalWire i.toNat := by
  have hlt := h.add_lt
  unfold internalWire Layout.internalWire exact
  simp only [UInt64.lt_iff_toNat_lt]
  split
  · have hadd : (l.nPublic + l.nSecret + i).toNat =
        l.nPublic.toNat + l.nSecret.toNat + i.toNat := by
      rw [UInt64.toNat_add, h.toNat_add, Nat.mod_eq_of_lt (by omega)]
    rw [h.ofWord_eq (by omega), hadd]
  · rfl

end Small

end WordLayout

end CircuitWitness
