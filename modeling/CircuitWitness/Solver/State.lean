import CircuitWitness.Hint.Scratch
import CircuitWitness.Solver.Error
import CircuitWitness.Solver.Event
import CircuitWitness.Solver.Solution

/-! # The state of a solve

    A solve reads a context that never changes and works on a state: the
    solution, the pool of scratch integers and the trace.  A step that stops
    leaves the state as it is at that point.
-/

namespace CircuitWitness

/-- The hint functions of a solve, no two of them with one identifier. -/
structure HintTable where
  functions : List HintFunction

namespace HintTable

/-- The function with an identifier. -/
def find? (t : HintTable) (id : HintId) : Option HintFunction :=
  t.functions.find? fun h => h.id == id

/-- Adds a function under an identifier that is free. -/
def add (t : HintTable) (h : HintFunction) : Except SolverError HintTable :=
  if (t.find? h.id).isSome then .error (.duplicateHint h.id h.name)
  else .ok ⟨t.functions ++ [h]⟩

/-- The table of a list of functions.  The first function whose identifier is
    taken by an earlier one is reported. -/
def ofList (functions : List HintFunction) : Except SolverError HintTable :=
  functions.foldlM add ⟨[]⟩

end HintTable

/-- What the steps of a solve read. -/
structure Context (c : Curve) where
  table : CoefficientTable c
  functions : HintTable
  hints : HintMap

/-- What the steps of a solve work on. -/
structure SolveState (c : Curve) where
  solution : Solution c
  pool : ScratchPool
  trace : Array Event

/-- A step of a solve. -/
abbrev Solving (c : Curve) : Type → Type := ExceptT (Stop SolverError) (StateM (SolveState c))

namespace Solving

variable {c : Curve} {α : Type}

/-- What a step reads off the solution; the step stops at a fault. -/
def read (f : Solution c → Except Fault α) : Solving c α := fun s =>
  ((f s.solution).mapError .fault, s)

/-- Solves a wire. -/
def set (w : WireId) (v : Scalar c) : Solving c Unit := fun s =>
  match s.solution.set w v with
  | .ok solution => (.ok (), { s with solution })
  | .error f => (.error (.fault f), s)

/-- Adds an event to the trace. -/
def report (e : Event) : Solving c Unit := fun s =>
  (.ok (), { s with trace := s.trace.push e })

/-- Stops with an error. -/
def fail (e : SolverError) : Solving c α := fun s => (.error (.error e), s)

end Solving

end CircuitWitness
