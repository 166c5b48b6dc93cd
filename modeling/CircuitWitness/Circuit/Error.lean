import CircuitWitness.Circuit.Gate

/-! # Defects of a circuit

    What can be wrong with a circuit, and with an assignment of all its wires.
-/

namespace CircuitWitness

/-- A place in a circuit that terms stand in. -/
inductive Location where
  | gate (kind : Kind)
  | hintInput
  | hintOutput
  | log
  | debugInfo
  deriving DecidableEq, Repr

/-- The name used in messages. -/
def Location.name : Location → String
  | gate kind => kind.name
  | hintInput => "hint input"
  | hintOutput => "hint output"
  | log => "log"
  | debugInfo => "debug info"

/-- The ways in which a circuit can be malformed.  `index` counts the places of
    one kind of location. -/
inductive CircuitError where
  /-- There is no public wire, so no one wire. -/
  | missingOneWire
  | outOfRangeWire (location : Location) (index : Nat) (wire : WireId) (nWires : Nat)
  | unknownCoefficient (location : Location) (index : Nat) (coeff : CoeffId)
      (nCoefficients : Nat)
  /-- A term's visibility is not the one that the layout gives to its wire. -/
  | visibilityMismatch (location : Location) (index : Nat) (wire : WireId)
      (expected actual : Visibility)
  | hintWireMappedTwice (wire : WireId)
  | hintOutputIsInput (wire : WireId)
  | debugInfoOutOfRange (index nConstraints : Nat)
  deriving DecidableEq, Repr

namespace CircuitError

/-- The text of an error. -/
def message : CircuitError → String
  | missingOneWire => "the layout must declare at least the public one wire"
  | outOfRangeWire location index wire nWires =>
    s!"{location.name} #{index} refers to out-of-range wire {wire.index} (total wires {nWires})"
  | unknownCoefficient location index coeff nCoefficients =>
    s!"{location.name} #{index} refers to unknown coefficient {coeff.index} "
      ++ s!"(table size {nCoefficients})"
  | visibilityMismatch location index wire expected actual =>
    s!"{location.name} #{index} tags wire {wire.index} as {actual.name} "
      ++ s!"but the layout says {expected.name}"
  | hintWireMappedTwice wire => s!"wire {wire.index} is the output of more than one hint"
  | hintOutputIsInput wire => s!"hint output wire {wire.index} is an input wire"
  | debugInfoOutOfRange index nConstraints =>
    s!"debug info attached to constraint #{index} but there are only {nConstraints}"

end CircuitError

/-- Why an assignment of all wires is no witness. -/
inductive VerifyError where
  /-- The assignment has not one value for every wire. -/
  | size (nValues nWires : Nat)
  /-- The first constraint that fails, with the decimal of its residual. -/
  | residual (kind : Kind) (index : Nat) (decimal : String)
  deriving DecidableEq, Repr

namespace VerifyError

/-- The text of an error. -/
def message : VerifyError → String
  | size nValues nWires =>
    s!"assignment has {nValues} values, the constraint system has {nWires} wires"
  | residual kind index decimal =>
    s!"{kind.name} #{index} failed: residual {decimal} (expected 0)"

end VerifyError

end CircuitWitness
