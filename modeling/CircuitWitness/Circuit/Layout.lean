import CircuitWitness.Circuit.Term
import CircuitWitness.Fault

/-! # Layouts

    How the wires of a circuit are laid out: the public wires first, starting
    with the one wire, then the secret wires, then the internal ones.
-/

namespace CircuitWitness

/-- How many wires there are of each visibility. -/
structure Layout where
  /-- The one wire included. -/
  nPublic : Nat
  nSecret : Nat
  nInternal : Nat
  deriving DecidableEq, Repr

namespace Layout

/-- The number of wires. -/
def nWires (l : Layout) : Nat := l.nPublic + l.nSecret + l.nInternal

/-- The number of values that the caller supplies: one for every public wire but
    the one wire, and one for every secret wire. -/
def nInputs (l : Layout) : Nat := l.nPublic - 1 + l.nSecret

/-- How a wire of the layout is visible. -/
def visibility? (l : Layout) (w : WireId) : Option Visibility :=
  if w.index < l.nPublic then some .pub
  else if w.index < l.nPublic + l.nSecret then some .secret
  else if w.index < l.nWires then some .internal
  else none

/-- The public wire at a position; the one wire is at position `0`. -/
def publicWire (l : Layout) (i : Nat) : Except Fault WireId :=
  if i < l.nPublic then .ok ⟨i⟩ else .error (.noSuchWire .pub i)

/-- The secret wire at a position. -/
def secretWire (l : Layout) (i : Nat) : Except Fault WireId :=
  if i < l.nSecret then .ok ⟨l.nPublic + i⟩ else .error (.noSuchWire .secret i)

/-- The internal wire at a position. -/
def internalWire (l : Layout) (i : Nat) : Except Fault WireId :=
  if i < l.nInternal then .ok ⟨l.nPublic + l.nSecret + i⟩
  else .error (.noSuchWire .internal i)

/-! ## Every wire has one place -/

theorem visibility?_eq_none_iff {l : Layout} {w : WireId} :
    l.visibility? w = none ↔ l.nWires ≤ w.index := by
  unfold visibility? nWires
  split
  · simp; omega
  · split
    · simp; omega
    · split
      · simp; omega
      · simp; omega

theorem visibility?_publicWire {l : Layout} {i : Nat} {w : WireId}
    (h : l.publicWire i = .ok w) : l.visibility? w = some .pub := by
  unfold publicWire at h
  split at h
  · cases h
    simp_all [visibility?]
  · cases h

theorem visibility?_secretWire {l : Layout} {i : Nat} {w : WireId}
    (h : l.secretWire i = .ok w) : l.visibility? w = some .secret := by
  unfold secretWire at h
  split at h
  · cases h
    simp_all [visibility?]
  · cases h

theorem visibility?_internalWire {l : Layout} {i : Nat} {w : WireId}
    (h : l.internalWire i = .ok w) : l.visibility? w = some .internal := by
  unfold internalWire at h
  split at h
  · cases h
    rw [visibility?, if_neg (by simp; omega), if_neg (by simp), if_pos (by simp [nWires]; omega)]
  · cases h

end Layout

end CircuitWitness
