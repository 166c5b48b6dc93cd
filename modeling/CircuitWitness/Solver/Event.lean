import CircuitWitness.Circuit.HintMap
import CircuitWitness.Hint.Function

/-! # Events

    What a solve reports while it runs, in order.
-/

namespace CircuitWitness

/-- One run of a hint function. -/
structure Invocation where
  function : HintFunction
  /-- The wire that was asked for. -/
  wire : WireId
  call : HintCall
  inputs : List Nat
  /-- The buffer as it was handed over. -/
  outputs : List Nat

/-- A step that is worth a line of a trace. -/
inductive Event where
  | started (kind : Kind) (nWires nConstraints : Nat)
  /-- A hint call passed its checks and borrowed this many integers. -/
  | borrowed (nIntegers : Nat)
  /-- A hint function is about to run. -/
  | called (run : Invocation)
  /-- A constraint fails and the solve goes on. -/
  | unsatisfied (constraint : Nat) (detail : String)
  /-- The sink took only a part of the logs. -/
  | logsCut (reason : String)
  | solved (nUnsatisfied : Nat)

/-- The run of a hint function that an event reports. -/
def Event.invocation? : Event → Option Invocation
  | called run => some run
  | _ => none

end CircuitWitness
