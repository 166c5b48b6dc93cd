import CircuitWitness.Fault
import CircuitWitness.Field.Curve
import CircuitWitness.Hint.Identity

/-! # Hint functions

    A hint function computes integers from integers, outside of the circuit.  It
    is handed a buffer for its outputs and writes into it; it may fail half way,
    and then the buffer stays as it was left.  A function never changes how many
    entries the buffer has.
-/

namespace CircuitWitness

/-- Why a hint function failed. -/
inductive HintError where
  | inputArity (expected actual : Nat)
  | outputArity (expected actual : Nat)
  /-- The function has no value at its inputs. -/
  | undefined (reason : String)
  deriving DecidableEq, Repr

namespace HintError

/-- The text of an error. -/
def message : HintError → String
  | inputArity expected actual => s!"input has {actual} elements, expected {expected}"
  | outputArity expected actual => s!"result has {actual} elements, expected {expected}"
  | undefined reason => reason

end HintError

/-! ## Bodies -/

/-- What a hint function computes: the buffer it leaves, and whether it failed. -/
structure HintBody where
  run : (curve : Curve) → (inputs outputs : List Nat) → List Nat × Except HintError Unit
  length_run : ∀ curve inputs outputs,
    (run curve inputs outputs).1.length = outputs.length

namespace HintBody

/-- Leaves the buffer as it is. -/
def skip : HintBody where
  run _ _ outputs := (outputs, .ok ())
  length_run _ _ _ := rfl

instance : Inhabited HintBody := ⟨skip⟩

/-- Fills every output from the inputs and the output's position. -/
def fill (f : Curve → List Nat → Nat → Nat) : HintBody where
  run curve inputs outputs := (outputs.mapIdx fun i _ => f curve inputs i, .ok ())
  length_run _ _ _ := List.length_mapIdx

/-- Computes the first output, or fails and leaves the buffer as it is. -/
def single (f : Curve → List Nat → Except HintError Nat) : HintBody where
  run curve inputs outputs :=
    match f curve inputs with
    | .ok v => (outputs.set 0 v, .ok ())
    | .error e => (outputs, .error e)
  length_run curve inputs outputs := by
    cases f curve inputs <;> simp

/-- Refuses inputs and outputs of another number. -/
def shaped (nInputs nOutputs : Nat) (body : HintBody) : HintBody where
  run curve inputs outputs :=
    if inputs.length ≠ nInputs then (outputs, .error (.inputArity nInputs inputs.length))
    else if outputs.length ≠ nOutputs then (outputs, .error (.outputArity nOutputs outputs.length))
    else body.run curve inputs outputs
  length_run curve inputs outputs := by
    split
    · rfl
    · split
      · rfl
      · exact body.length_run curve inputs outputs

theorem shaped_run {nInputs nOutputs : Nat} {inputs outputs : List Nat}
    (hi : inputs.length = nInputs) (ho : outputs.length = nOutputs) (body : HintBody)
    (curve : Curve) :
    (body.shaped nInputs nOutputs).run curve inputs outputs = body.run curve inputs outputs := by
  simp [shaped, hi, ho]

end HintBody

/-! ## Functions -/

/-- A computation that circuits can ask for by its identifier. -/
structure HintFunction where
  id : HintId
  /-- The name used in errors and traces. -/
  name : String
  arity : Arity
  /-- The number of outputs for a number of inputs. -/
  nOutputs : Nat → Nat
  body : HintBody

namespace HintFunction

/-- Runs the function on a buffer. -/
def call (h : HintFunction) (curve : Curve) (inputs outputs : List Nat) :
    List Nat × Except HintError Unit :=
  h.body.run curve inputs outputs

/-- The function of a name and a fixed shape. -/
def ofShape (name : String) (nInputs nOutputs : Nat) (body : HintBody) : HintFunction where
  id := .derive name (.fixed nInputs) nOutputs
  name := name
  arity := .fixed nInputs
  nOutputs _ := nOutputs
  body := body.shaped nInputs nOutputs

/-- On buffers of its shape a function computes what its body does. -/
theorem call_ofShape {nInputs nOutputs : Nat} {inputs outputs : List Nat}
    (hi : inputs.length = nInputs) (ho : outputs.length = nOutputs) (name : String)
    (body : HintBody) (curve : Curve) :
    (ofShape name nInputs nOutputs body).call curve inputs outputs =
      body.run curve inputs outputs :=
  HintBody.shaped_run hi ho body curve

/-- A function of one output replaces what the buffer held. -/
theorem call_single_ok {nInputs v : Nat} {inputs : List Nat} {curve : Curve}
    {f : Curve → List Nat → Except HintError Nat} (hi : inputs.length = nInputs)
    (h : f curve inputs = .ok v) (name : String) (held : Nat) :
    (ofShape name nInputs 1 (.single f)).call curve inputs [held] = ([v], .ok ()) := by
  rw [call_ofShape hi (show [held].length = 1 from rfl)]
  simp [HintBody.single, h]

/-- A function of one output that fails leaves what the buffer held. -/
theorem call_single_error {nInputs : Nat} {e : HintError} {inputs : List Nat} {curve : Curve}
    {f : Curve → List Nat → Except HintError Nat} (hi : inputs.length = nInputs)
    (h : f curve inputs = .error e) (name : String) (held : Nat) :
    (ofShape name nInputs 1 (.single f)).call curve inputs [held] = ([held], .error e) := by
  rw [call_ofShape hi (show [held].length = 1 from rfl)]
  simp [HintBody.single, h]

/-- Declares a function of a fixed shape.  It has to have an output. -/
def fixed (name : String) (nInputs nOutputs : Nat) (body : HintBody) :
    Except Fault HintFunction :=
  if nOutputs = 0 then .error (.noOutputs name) else .ok (ofShape name nInputs nOutputs body)

/-- The shape and the identifier of a function that has a fixed number of inputs. -/
def signature? (h : HintFunction) : Option String :=
  match h.arity with
  | .fixed n => some s!"{h.name}([{n}]BigUint, [{h.nOutputs n}]BigUint) {h.id.text}"
  | .any => none

end HintFunction

end CircuitWitness
