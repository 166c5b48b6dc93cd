import CircuitWitness.Proofs.Solver.Words

/-! # Where wires stand

    The three classes of wires lie next to each other, each with as many wires as the
    layout says (`Layout.wireAt_eq_ok_iff`).  So every wire of the layout stands at one
    position of one class, and nothing stands past the last class (`Layout.Partitioned`).

    The inputs of a solve are counted without the one wire, and they are put one wire
    further on.  They end up at the public wires after the one wire and at the secret
    wires, in this order (`Layout.Seeded`).
-/

namespace CircuitWitness

variable {c : Curve} {k : Kind}

namespace Layout

/-! ## Classes -/

/-- The wire at a position of a class.  There are no virtual wires. -/
def wireAt (l : Layout) : Visibility → Nat → Except Fault WireId
  | .pub => l.publicWire
  | .secret => l.secretWire
  | .internal => l.internalWire
  | .virtual => fun i => .error (.noSuchWire .virtual i)

/-- How many wires there are of a class. -/
def count (l : Layout) : Visibility → Nat
  | .pub => l.nPublic
  | .secret => l.nSecret
  | .internal => l.nInternal
  | .virtual => 0

/-- How many wires stand before those of a class. -/
def offset (l : Layout) : Visibility → Nat
  | .pub => 0
  | .secret => l.nPublic
  | .internal => l.nPublic + l.nSecret
  | .virtual => l.nWires

/-- The classes differ in how long they are and in where they start. -/
theorem wireAt_eq (l : Layout) (v : Visibility) (i : Nat) :
    l.wireAt v i = if i < l.count v then .ok ⟨l.offset v + i⟩ else .error (.noSuchWire v i) := by
  cases v with
  | pub => rw [offset, Nat.zero_add]; rfl
  | secret => rfl
  | internal => rfl
  | virtual => rfl

theorem wireAt_eq_ok_iff {l : Layout} {v : Visibility} {i : Nat} {w : WireId} :
    l.wireAt v i = .ok w ↔ i < l.count v ∧ w.index = l.offset v + i := by
  obtain ⟨j⟩ := w
  rw [wireAt_eq]
  split
  · rename_i hi
    simp [hi, eq_comm]
  · rename_i hi
    simp [hi]

/-- A wire is as visible as the class that it falls into. -/
theorem visibility?_eq_some_iff {l : Layout} {w : WireId} {v : Visibility} :
    l.visibility? w = some v ↔ ∃ i, l.wireAt v i = .ok w := by
  constructor
  · intro h
    -- the comparisons are those with the ends of the classes, one after another
    have hposition : l.offset v ≤ w.index ∧ w.index - l.offset v < l.count v := by
      unfold visibility? nWires at h
      split at h
      · cases h
        simp only [offset, count]
        omega
      · split at h
        · cases h
          simp only [offset, count]
          omega
        · split at h
          · cases h
            simp only [offset, count]
            omega
          · cases h
    exact ⟨w.index - l.offset v, wireAt_eq_ok_iff.2 ⟨hposition.2, by omega⟩⟩
  · rintro ⟨i, h⟩
    cases v with
    | pub => exact visibility?_publicWire h
    | secret => exact visibility?_secretWire h
    | internal => exact visibility?_internalWire h
    | virtual => cases h

/-- The wires that are solved from the start, and their values. -/
structure Seeded (l : Layout) (assignment : List (Scalar c)) (solution : Solution c) : Prop where
  nWires_eq : solution.nWires = l.nWires
  solved_iff : ∀ w, (solution.get? w).isSome ↔
    l.visibility? w = some .pub ∨ l.visibility? w = some .secret
  one : solution.get? .one = some 1
  publicInput : ∀ i w, l.publicWire i = .ok w → 1 ≤ i → solution.get? w = assignment[i - 1]?
  secretInput : ∀ j w, l.secretWire j = .ok w →
    solution.get? w = assignment[l.nPublic - 1 + j]?

theorem seeded_of_seeds {l : Layout} {assignment : List (Scalar c)} {solution : Solution c}
    (hpublic : 0 < l.nPublic) (hlen : assignment.length = l.nInputs)
    (hseeds : (Solution.unsolved l.nWires).setAll (Circuit.seeds assignment) =
      (.ok (), solution)) : l.Seeded assignment solution := by
  have hget := Circuit.get?_of_seeds hseeds
  -- past the one wire, the wires and the inputs are off by one
  have hinput : ∀ (w : WireId) i, w.index = i + 1 → solution.get? w = assignment[i]? := by
    intro w i hw
    rw [hget, hw, List.getElem?_cons_succ]
  constructor
  case nWires_eq => rw [(Solution.extends_of_setAll hseeds).nWires_eq, Solution.nWires_unsolved]
  case one => exact hget .one
  case publicInput =>
    intro i w hw hi
    obtain ⟨-, hindex⟩ := wireAt_eq_ok_iff.1 (show l.wireAt .pub i = .ok w from hw)
    simp only [offset] at hindex
    exact hinput w (i - 1) (by omega)
  case secretInput =>
    intro j w hw
    obtain ⟨-, hindex⟩ := wireAt_eq_ok_iff.1 (show l.wireAt .secret j = .ok w from hw)
    simp only [offset] at hindex
    exact hinput w (l.nPublic - 1 + j) (by omega)
  case solved_iff =>
    intro w
    have hlt : (solution.get? w).isSome ↔ w.index < l.nPublic + l.nSecret := by
      rw [hget, isSome_getElem?, List.length_cons, hlen, nInputs]
      omega
    rw [hlt]
    unfold visibility?
    split
    · simp only [true_or, iff_true]
      omega
    · split
      · simp only [or_true, iff_true]
        omega
      · split
        · simp only [Option.some.injEq, reduceCtorEq, or_self, iff_false]
          omega
        · simp only [reduceCtorEq, or_self, iff_false]
          omega

end Layout

/-! ## Machine words -/

namespace WordLayout

/-- The wire at a position of a class.  There are no virtual wires. -/
def wireAt (l : WordLayout) : Visibility → UInt64 → Except Fault WireId
  | .pub => l.publicWire
  | .secret => l.secretWire
  | .internal => l.internalWire
  | .virtual => fun i => .error (.noSuchWire .virtual i.toNat)

/-- How many wires there are of a class. -/
def count (l : WordLayout) : Visibility → UInt64
  | .pub => l.nPublic
  | .secret => l.nSecret
  | .internal => l.nInternal
  | .virtual => 0

/-- The wires that are solved from the start, and their values. -/
structure Seeded (l : WordLayout) (assignment : List (Scalar c)) (solution : Solution c) :
    Prop where
  nWires_eq : solution.nWires = l.nWires.toNat
  solved_iff : ∀ w, (solution.get? w).isSome ↔
    l.visibility? w = some .pub ∨ l.visibility? w = some .secret
  one : solution.get? .one = some 1
  publicInput : ∀ i w, l.publicWire i = .ok w → 1 ≤ i →
    solution.get? w = assignment[i.toNat - 1]?
  secretInput : ∀ j w, l.secretWire j = .ok w →
    solution.get? w = assignment[l.nPublic.toNat - 1 + j.toNat]?

section Small

variable {l : WordLayout}

theorem Small.wireAt_eq (h : l.Small) (v : Visibility) (i : UInt64) :
    l.wireAt v i = l.exact.wireAt v i.toNat := by
  cases v with
  | pub => exact h.publicWire_eq i
  | secret => exact h.secretWire_eq i
  | internal => exact h.internalWire_eq i
  | virtual => rfl

theorem Small.seeded (h : l.Small) {assignment : List (Scalar c)} {solution : Solution c}
    (hseeded : l.exact.Seeded assignment solution) : l.Seeded assignment solution where
  nWires_eq := hseeded.nWires_eq.trans h.toNat_nWires.symm
  solved_iff w := by
    rw [h.visibility?_eq]
    exact hseeded.solved_iff w
  one := hseeded.one
  publicInput i w hw hi := by
    rw [h.publicWire_eq] at hw
    exact hseeded.publicInput i.toNat w hw (UInt64.le_iff_toNat_le.1 hi)
  secretInput j w hw := by
    rw [h.secretWire_eq] at hw
    exact hseeded.secretInput j.toNat w hw

end Small

end WordLayout

end CircuitWitness
