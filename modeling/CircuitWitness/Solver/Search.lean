import CircuitWitness.Solver.HintCall

/-! # Looking for the unknown

    A gate is visited term by term.  The hint call behind a term is run first;
    if the term can still not be computed, it holds the unknown of the gate.
    The search goes on to the end unless a second unknown clashes with the first.
-/

namespace CircuitWitness

variable {c : Curve} {π : Type}

/-- What visiting a gate established. -/
inductive Outcome where
  /-- The gate holds, maybe after its unknown was solved. -/
  | satisfied
  /-- All wires are solved and the gate does not hold. -/
  | unsatisfied
  /-- The gate has more than one unknown, or its unknown cannot be isolated. -/
  | unsolvable
  deriving DecidableEq, Repr

/-- What the terms of a gate leave open. -/
inductive Unknowns (π : Type) where
  | none
  | one (place : π)
  | several

/-- What is left open if at most one place is. -/
def Unknowns.ofOption : Option π → Unknowns π
  | .none => .none
  | .some p => .one p

/-- Visits places from left to right.  `found` is the unknown so far. -/
def seekUnknown (ctx : Context c) (term : π → Term) (clash : π → π → Bool) :
    (found : Option π) → List π → Solving c (Unknowns π)
  | found, [] => return .ofOption found
  | found, p :: rest => do
    resolve ctx (term p)
    if ← Solving.read (·.isKnown (term p)) then seekUnknown ctx term clash found rest
    else
      match found with
      | some q => if clash q p then return .several else seekUnknown ctx term clash (some p) rest
      | none => seekUnknown ctx term clash (some p) rest

/-- Solves the unknown wire as a gate demands.  A demand without a value means
    that the unknown cannot be isolated. -/
def settle (w : WireId) : Option (Scalar c × Outcome) → Solving c Outcome
  | none => return .unsolvable
  | some (v, outcome) => do
    Solving.set w v
    return outcome

/-- The outcome of a gate without an unknown. -/
def Outcome.ofBool (holds : Bool) : Outcome := if holds then satisfied else unsatisfied

end CircuitWitness
