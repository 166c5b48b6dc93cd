import CircuitWitness.Circuit.Words
import CircuitWitness.Hint.Registry
import CircuitWitness.Solver.Options
import CircuitWitness.Solver.Run

/-! # Solving

    `Circuit.solve` computes every wire of a circuit from the inputs.  The one wire
    and the inputs are solved first, then the circuit is run, and the logs are
    printed whether or not the run ended with an error.  A witness has a value
    for every wire.

    `Circuit.solveIn` does the same for a layout in machine words.  Only the start
    of the solve looks at the layout, and from there on the two are one.
-/

namespace CircuitWitness

variable {c : Curve} {k : Kind}

/-- A complete assignment of wire values. -/
structure Witness (c : Curve) where
  values : Array (Scalar c)
  /-- The first constraints that do not hold; none unless the solve was forced. -/
  unsatisfied : Array Nat
  /-- How many constraints do not hold. -/
  nUnsatisfied : Nat

/-- Every constraint holds. -/
def Witness.isSatisfied (w : Witness c) : Bool := w.nUnsatisfied == 0

/-- How a solve ended, and what it left behind. -/
structure Report (c : Curve) where
  result : Except (Stop SolverError) (Witness c)
  /-- The pool of the registry after the solve. -/
  pool : ScratchPool
  /-- The sink after the solve. -/
  logger : Option Sink
  trace : Array Event

namespace Circuit

/-- The wires that are solved from the start: the one wire, then the inputs. -/
def seeds (assignment : List (Scalar c)) : List (WireId × Scalar c) :=
  (.one, 1) :: assignment.zipIdx.map fun (v, i) => (⟨i + 1⟩, v)

/-- The same wires, with their positions in machine words. -/
def wordSeeds (assignment : List (Scalar c)) : List (WireId × Scalar c) :=
  (.one, 1) :: assignment.zipIdx.map fun (v, i) => (.ofWord (.ofNat i + 1), v)

/-- The hint functions of a solve. -/
def hintTable (registry : Registry) (options : SolverOptions) : Except SolverError HintTable :=
  HintTable.ofList (registry.snapshot ++ options.hintFunctions)

/-- Writes the logs to the sink, if there is one. -/
def printTo (s : Circuit c k) (solution : Solution c) :
    Option Sink → Except Fault Bool × Option Sink
  | none => (.ok true, none)
  | some sink =>
    let (result, sink) := solution.printLogs s.table s.logs.toList sink
    (result, some sink)

/-- The witness of a run that ended, if every wire is solved. -/
def conclude (solution : Solution c) (failures : Failures) :
    Except (Stop SolverError) (Witness c) :=
  if solution.isValid then .ok ⟨solution.complete, failures.recorded, failures.count⟩
  else .error (.fault .uninstantiatedWires)

/-- Solves a circuit from a state in which the inputs are solved. -/
def solveFrom (s : Circuit c k) (functions : HintTable) (options : SolverOptions)
    (state : SolveState c) : Report c :=
  let (ended, state) := (s.run functions options.force).run.run state
  let stopped := fun stop sink trace => ⟨.error stop, state.pool, sink, trace⟩
  match ended with
  -- nothing is printed after a fault
  | .error (.fault f) => stopped (.fault f) options.logger state.trace
  -- an error of the run is kept until the logs are printed
  | _ =>
    let (printed, logger) := s.printTo state.solution options.logger
    match printed with
    | .error f => stopped (.fault f) logger state.trace
    | .ok whole =>
      let trace := if whole then state.trace else state.trace.push (.logsCut Sink.fullText)
      match ended with
      | .error stop => stopped stop logger trace
      | .ok failures =>
        match conclude state.solution failures with
        | .error stop => stopped stop logger trace
        | .ok w => ⟨.ok w, state.pool, logger, trace.push (.solved failures.count)⟩

/-- Solves a circuit of `nWires` wires, `nInputs` of which the caller supplies, if there is
    room for that many.  The wires of `seeds` are solved first. -/
def solveWith (s : Circuit c k) (nWires nInputs : Nat) (room : Except Fault Unit)
    (seeds : List (WireId × Scalar c)) (assignment : List (Scalar c)) (registry : Registry)
    (options : SolverOptions) : Report c :=
  let trace := #[.started k nWires s.nConstraints]
  let stopped := fun stop => ⟨.error stop, registry.pool, options.logger, trace⟩
  if assignment.length ≠ nInputs then
    stopped (.error (.witnessSize nInputs assignment.length))
  else
    match hintTable registry options with
    | .error e => stopped (.error e)
    | .ok functions =>
      match room with
      | .error f => stopped (.fault f)
      | .ok () =>
        match (Solution.unsolved nWires).setAll seeds with
        | (.error f, _) => stopped (.fault f)
        | (.ok (), solution) => s.solveFrom functions options ⟨solution, registry.pool, trace⟩

/-- Computes every wire of a circuit.  `assignment` holds the public inputs and
    then the secret ones. -/
def solve (s : Circuit c k) (assignment : List (Scalar c)) (registry : Registry)
    (options : SolverOptions) : Report c :=
  s.solveWith s.nWires s.layout.nInputs (.ok ()) (seeds assignment) assignment registry options

theorem solve_eq (s : Circuit c k) (assignment : List (Scalar c)) (registry : Registry)
    (options : SolverOptions) :
    s.solve assignment registry options =
      let trace := #[.started k s.nWires s.nConstraints]
      let stopped := fun stop => ⟨.error stop, registry.pool, options.logger, trace⟩
      if assignment.length ≠ s.layout.nInputs then
        stopped (.error (.witnessSize s.layout.nInputs assignment.length))
      else
        match hintTable registry options with
        | .error e => stopped (.error e)
        | .ok functions =>
          match (Solution.unsolved s.nWires).setAll (seeds assignment) with
          | (.error f, _) => stopped (.fault f)
          | (.ok (), solution) =>
            s.solveFrom functions options ⟨solution, registry.pool, trace⟩ := rfl

/-! ## Solving in machine words -/

/-- How many scalars fit into the greatest number of bytes that can be asked for at once. -/
def maxScalars : Nat := (UInt64.size / 2 - 1) / 32

/-- There is room for a scalar for every wire. -/
def roomFor (l : WordLayout) : Except Fault Unit :=
  if maxScalars < l.nWires.toNat then .error .capacityOverflow else .ok ()

/-- Computes every wire of a circuit whose layout is `l`. -/
def solveIn (s : Circuit c k) (l : WordLayout) (assignment : List (Scalar c))
    (registry : Registry) (options : SolverOptions) : Report c :=
  s.solveWith l.nWires.toNat l.nInputs.toNat (roomFor l) (wordSeeds assignment)
    assignment registry options

end Circuit

end CircuitWitness
