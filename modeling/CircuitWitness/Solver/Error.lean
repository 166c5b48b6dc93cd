import CircuitWitness.Circuit.Term
import CircuitWitness.Hint.Function

/-! # Errors of a solve

    What the inputs of a solve can lead to.  Broken preconditions are faults and
    not errors.
-/

namespace CircuitWitness

/-- A side of a hint call. -/
inductive Side where
  | inputs
  | outputs
  deriving DecidableEq, Repr

/-- The name used in messages. -/
def Side.name : Side → String
  | inputs => "inputs"
  | outputs => "outputs"

/-- Why a solve failed. -/
inductive SolverError where
  | witnessSize (expected actual : Nat)
  /-- Two hint functions have one identifier. -/
  | duplicateHint (id : HintId) (name : String)
  /-- No hint function has the identifier of a call. -/
  | missingHint (id : HintId) (wire : WireId)
  /-- A hint function does not take a call of this shape. -/
  | hintArity (name : String) (side : Side) (expected actual : Nat)
  /-- An input of a hint call needs a wire that is unsolved. -/
  | unresolvedDependency (wire : WireId) (id : HintId)
  | hintFailed (name : String) (source : HintError)
  /-- A constraint leaves more than one wire open. -/
  | unsolvableConstraint (constraint : Nat)
  | unsatisfiedConstraint (constraint : Nat) (debug : String)
  deriving DecidableEq, Repr

namespace SolverError

/-- The text of an error. -/
def message : SolverError → String
  | witnessSize expected actual =>
    s!"invalid witness size, got {actual}, expected {expected}"
  | duplicateHint id name => s!"duplicate hint function {name} ({id.text})"
  | missingHint id wire => s!"missing hint function {id.text} for wire {wire.index}"
  | hintArity name side expected actual =>
    s!"hint {name} expects {expected} {side.name}, the call has {actual}"
  | unresolvedDependency wire id =>
    s!"expected wire {wire.index} to be instantiated while evaluating hint {id.text}"
  | hintFailed name source => s!"hint {name} failed: {source.message}"
  | unsolvableConstraint i => s!"constraint #{i} has more than one unsolved wire"
  | unsatisfiedConstraint i debug => s!"constraint #{i} is not satisfied: {debug}"

end SolverError

end CircuitWitness
