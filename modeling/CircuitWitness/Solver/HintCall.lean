import CircuitWitness.Solver.State

/-! # Running hint calls

    A hint call is run at most once: it solves all its wires, so that asking for
    another of them does nothing.  It is checked in the order of
    `HintTable.handler`, then its inputs are read, and only then the function
    runs.  Every exit gives the scratch integers back.
-/

namespace CircuitWitness

variable {c : Curve}

/-- The function of a call made for `w`, if it takes a call of this shape. -/
def HintTable.handler (t : HintTable) (w : WireId) (call : HintCall) :
    Except SolverError HintFunction :=
  match t.find? call.id with
  | none => .error (.missingHint call.id w)
  | some h =>
    let nInputs := call.inputs.length
    match h.arity, h.arity.accepts nInputs with
    | .fixed n, false => .error (.hintArity h.name .inputs n nInputs)
    | _, _ =>
      if h.nOutputs nInputs ≠ call.wires.length then
        .error (.hintArity h.name .outputs (h.nOutputs nInputs) call.wires.length)
      else .ok h

namespace Solution

/-- Adds up the terms of an input of a call of the function `id`. -/
def readTerms (table : CoefficientTable c) (s : Solution c) (id : HintId) (sum : Scalar c) :
    List Term → Except (Stop SolverError) (Scalar c)
  | [] => .ok sum
  | t :: rest => do
    if !t.isVirtual then
      if !(← s.isSolved t.wire) then throw (.error (.unresolvedDependency t.wire id))
    s.readTerms table id (sum + (← s.computeTerm table t)) rest

/-- The integer that an input stands for.  The sum is taken in the field, so the
    integer is below the modulus. -/
def readInput (table : CoefficientTable c) (s : Solution c) (id : HintId)
    (lc : LinearCombination) : Except (Stop SolverError) Nat := do
  lc.assertSet
  return (← s.readTerms table id 0 lc.terms).val

/-- The integers of the inputs, up to the first that has none. -/
def readInputs (table : CoefficientTable c) (s : Solution c) (id : HintId) :
    List LinearCombination → Except (Stop SolverError) Unit × List Nat
  | [] => (.ok (), [])
  | lc :: rest =>
    match s.readInput table id lc with
    | .error stop => (.error stop, [])
    | .ok x =>
      let (result, xs) := s.readInputs table id rest
      (result, x :: xs)

end Solution

/-- Runs a function for a call, with inputs and outputs in one borrowed buffer. -/
def runCall (ctx : Context c) (w : WireId) (call : HintCall) (h : HintFunction) :
    Solving c Unit := fun s =>
  let nInputs := call.inputs.length
  let nIntegers := nInputs + h.nOutputs nInputs
  let (buffer, pool) := s.pool.take nIntegers
  let trace := s.trace.push (.borrowed nIntegers)
  let (result, inputs) := s.solution.readInputs ctx.table call.id call.inputs
  match result with
  | .error stop =>
    -- the inputs before the failing one are in the buffer already
    let pool := pool.giveBack (inputs ++ buffer.drop inputs.length)
    (.error stop, { s with pool, trace })
  | .ok () =>
    let outputs := buffer.drop nInputs
    let trace := trace.push (.called ⟨h, w, call, inputs, outputs⟩)
    let (result, outputs) := (h.call c inputs outputs).swap
    let pool := pool.giveBack (inputs ++ outputs)
    match result with
    | .error e => (.error (.error (.hintFailed h.name e)), { s with pool, trace })
    | .ok () =>
      -- outputs may exceed the modulus; they are reduced on their way into wires
      let (result, solution) := s.solution.setAll (call.wires.zip (outputs.map Scalar.ofNat))
      (result.mapError .fault, { solution, pool, trace })

/-- Solves a wire by the call that produces it. -/
def solveWithHint (ctx : Context c) (w : WireId) (call : HintCall) : Solving c Unit := do
  if ← Solving.read (·.isSolved w) then return
  match ctx.functions.handler w call with
  | .error e => Solving.fail e
  | .ok h => runCall ctx w call h

/-- Runs the call behind the wire of a term, if there is one and the wire is not
    solved yet. -/
def resolve (ctx : Context c) (t : Term) : Solving c Unit := do
  if t.isVirtual then return
  if ← Solving.read (·.isSolved t.wire) then return
  match ctx.hints.producer? t.wire with
  | some call => solveWithHint ctx t.wire call
  | none => return

end CircuitWitness
