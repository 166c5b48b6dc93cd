import CircuitWitness.Circuit.Term
import CircuitWitness.Hint.Id

/-! # Faults

    A fault is a broken precondition: the caller handed over a circuit, an index
    or a function that the operation is not defined on.  Faults are kept apart
    from the errors of a solve, which any input may lead to.
-/

namespace CircuitWitness

/-- The preconditions that a caller can break. -/
inductive Fault where
  /-- A wire, a coefficient or a position is past the end of its list. -/
  | outOfBounds
  /-- More scalars were asked for than an address space has room for. -/
  | capacityOverflow
  /-- A solved wire was assigned again. -/
  | solvedTwice (wire : WireId)
  /-- A term was computed whose wire is unsolved. -/
  | unsolvedWire (wire : WireId)
  /-- A linear combination without terms was used as a value. -/
  | unsetCombination
  /-- The constraints and hints of a circuit leave a wire without a value. -/
  | uninstantiatedWires
  /-- A layout has no wire of this visibility at this position. -/
  | noSuchWire (visibility : Visibility) (position : Nat)
  /-- A term was asked for whose coefficient the table lacks. -/
  | unknownConstant (decimal : String)
  /-- A term was asked for whose wire the layout lacks. -/
  | outsideLayout (wire : WireId)
  /-- A hint function without outputs was declared. -/
  | noOutputs (hint : String)
  /-- A bit decomposition without bits was declared. -/
  | noBits
  /-- A second hint function was registered under a taken identifier. -/
  | registeredTwice (hint : String) (id : HintId) (existing : String)
  deriving DecidableEq, Repr

namespace Fault

/-- The class of wires in the text of `noSuchWire`. -/
def wireClass : Visibility → String
  | .pub => "public"
  | .secret => "secret"
  | .internal => "internal"
  | .virtual => "virtual"

/-- The text of a fault. -/
def message : Fault → String
  | outOfBounds => "index out of bounds"
  | capacityOverflow => "capacity overflow"
  | solvedTwice w => s!"solving the same wire twice should never happen (wire {w.index})"
  | unsolvedWire w => s!"computing a term with an unsolved wire (wire {w.index})"
  | unsetCombination => "no value: linear combination was declared but never assigned"
  | uninstantiatedWires => "solver didn't instantiate all wires"
  | noSuchWire v i => s!"{wireClass v} wire {i} out of range"
  | unknownConstant decimal => s!"coefficient {decimal} is not in the table"
  | outsideLayout w => s!"wire WireId({w.index}) is outside of the layout"
  | noOutputs hint => s!"hint {hint} must produce at least one output"
  | noBits => "bit decomposition needs at least one output"
  | registeredTwice hint id existing =>
    s!"hint function {hint} registered twice (id {id.text} is already taken by {existing})"

end Fault

/-- Why an operation that can fail has no result: one of its own errors, or a
    broken precondition. -/
inductive Stop (ε : Type) where
  | error (e : ε)
  | fault (f : Fault)

/-- A fault stops any operation. -/
instance {ε : Type} : MonadLift (Except Fault) (Except (Stop ε)) :=
  ⟨fun x => x.mapError .fault⟩

end CircuitWitness
