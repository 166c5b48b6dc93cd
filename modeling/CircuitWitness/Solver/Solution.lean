import CircuitWitness.Circuit.Coefficients
import CircuitWitness.Circuit.LinearCombination

/-! # Solutions

    The wire values of a solve in progress.  A wire goes from unsolved to solved
    once, and a solved wire keeps its value.  Every wire has a stored value and a
    flag that tells whether the value counts; in the end the stored values are
    handed out as they are.  Terms and combinations are evaluated as far as the
    solved wires allow.
-/

namespace CircuitWitness

/-- A stored value and a flag for every wire. -/
structure Solution (c : Curve) where
  values : Array (Scalar c)
  /-- Which wires are solved. -/
  solved : Array Bool
  /-- How many wires were solved. -/
  nSolved : Nat
  size_solved : solved.size = values.size

namespace Solution

variable {c : Curve}

/-- No wire is solved, and zero is stored for each. -/
def unsolved (nWires : Nat) : Solution c where
  values := Array.replicate nWires 0
  solved := Array.replicate nWires false
  nSolved := 0
  size_solved := by simp

instance : Inhabited (Solution c) := ⟨unsolved 0⟩

/-- The number of wires. -/
def nWires (s : Solution c) : Nat := s.values.size

/-- Every wire is solved. -/
def isValid (s : Solution c) : Bool := s.nSolved == s.values.size

/-- A wire is solved. -/
def isSolved (s : Solution c) (w : WireId) : Except Fault Bool :=
  match s.solved[w.index]? with
  | some b => .ok b
  | none => .error .outOfBounds

/-- The value of a wire, if it is solved. -/
def value (s : Solution c) (w : WireId) : Except Fault (Option (Scalar c)) := do
  if ← s.isSolved w then
    match s.values[w.index]? with
    | some v => return some v
    | none => throw .outOfBounds
  else return none

/-- Stores the value of a wire, sets its flag and counts it. -/
def store (s : Solution c) (w : WireId) (v : Scalar c) : Solution c where
  values := s.values.setIfInBounds w.index v
  solved := s.solved.setIfInBounds w.index true
  nSolved := s.nSolved + 1
  size_solved := by simp [s.size_solved]

@[simp] theorem nWires_store (s : Solution c) (w : WireId) (v : Scalar c) :
    (s.store w v).nWires = s.nWires := by
  simp [nWires, store]

/-- Solves a wire. -/
def set (s : Solution c) (w : WireId) (v : Scalar c) : Except Fault (Solution c) := do
  if ← s.isSolved w then throw (.solvedTwice w)
  return s.store w v

theorem set_eq_ok_iff {s t : Solution c} {w : WireId} {v : Scalar c} :
    s.set w v = .ok t ↔ s.solved[w.index]? = some false ∧ t = s.store w v := by
  simp only [set, isSolved]
  rcases s.solved[w.index]? with _ | _ | _
  · simp [bind, Except.bind]
  · simp [bind, Except.bind, pure, Except.pure, eq_comm]
  · simp [bind, Except.bind, throw, throwThe, MonadExceptOf.throw]

theorem nWires_set {s t : Solution c} {w : WireId} {v : Scalar c}
    (h : s.set w v = .ok t) : t.nWires = s.nWires := by
  obtain ⟨_, rfl⟩ := set_eq_ok_iff.1 h
  exact nWires_store s w v

/-- Solves wires one after another.  The wires before a fault stay solved. -/
def setAll (s : Solution c) : List (WireId × Scalar c) → Except Fault Unit × Solution c
  | [] => (.ok (), s)
  | (w, v) :: rest =>
    match s.set w v with
    | .ok s => s.setAll rest
    | .error f => (.error f, s)

/-- The stored values of all wires, solved or not. -/
def complete (s : Solution c) : Array (Scalar c) := s.values

/-! ## Evaluation -/

/-- The value of a term.  The coefficients `0`, `1`, `2` and `-1` need no
    multiplication; a coefficient `0` does not even need the wire. -/
def computeTerm (table : CoefficientTable c) (s : Solution c) (t : Term) :
    Except Fault (Scalar c) :=
  if t.isVirtual then table.value t.coeff
  else if t.coeff = .zero then .ok 0
  else do
    match ← s.value t.wire with
    | none => throw (.unsolvedWire t.wire)
    | some v =>
      if t.coeff = .one then return v
      else if t.coeff = .two then return v.double
      else if t.coeff = .minusOne then return -v
      else return (← table.value t.coeff) * v

/-- The term can be computed. -/
def isKnown (s : Solution c) (t : Term) : Except Fault Bool :=
  if t.isVirtual || t.coeff == .zero then .ok true else s.isSolved t.wire

/-- The value of a term that can be computed. -/
def computeKnown (table : CoefficientTable c) (s : Solution c) (t : Term) :
    Except Fault (Option (Scalar c)) := do
  if ← s.isKnown t then return some (← s.computeTerm table t) else return none

/-- A sum and the terms after it, up to the first that cannot be computed. -/
def evaluateFrom (table : CoefficientTable c) (s : Solution c) (sum : Scalar c) :
    List Term → Except Fault (Option (Scalar c))
  | [] => .ok (some sum)
  | t :: rest => do
    match ← s.computeKnown table t with
    | some v => s.evaluateFrom table (sum + v) rest
    | none => return none

/-- The value of a combination whose terms can all be computed. -/
def evaluate (table : CoefficientTable c) (s : Solution c) (lc : LinearCombination) :
    Except Fault (Option (Scalar c)) :=
  s.evaluateFrom table 0 lc.terms

end Solution

end CircuitWitness
