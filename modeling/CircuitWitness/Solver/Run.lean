import CircuitWitness.Order.Stable
import CircuitWitness.Solver.RankOne
import CircuitWitness.Solver.Sparse

/-! # Running a circuit

    The gates are visited in their order, each solving its unknown or being
    checked.  The hint calls that no gate asked for come after them, by the
    lowest of their wires.  A gate that fails stops the run, unless the run is
    forced; then it is counted, and the first hundred are recorded.
-/

namespace CircuitWitness

variable {c : Curve} {k : Kind}

namespace Gate

/-- Solves the unknown of a gate, or checks the gate if it has none. -/
def solve (ctx : Context c) : Gate k → Solving c Outcome
  | rankOne g => g.solve ctx
  | sparse g => g.solve ctx

/-- A gate with its values so far, and in symbols. -/
def describe (table : CoefficientTable c) (s : Solution c) : Gate k → Except Fault String
  | rankOne g => g.describe table s
  | sparse g => g.describe table s

end Gate

/-- The gates that failed in a forced run. -/
structure Failures where
  /-- The first of them, in increasing order. -/
  recorded : Array Nat
  count : Nat
  deriving DecidableEq, Repr

namespace Failures

/-- How many failures are recorded. -/
def maxRecorded : Nat := 100

/-- Nothing failed. -/
def none : Failures := ⟨#[], 0⟩

/-- Counts the failure of the gate at an index. -/
def note (f : Failures) (index : Nat) : Failures where
  recorded := if f.recorded.size < maxRecorded then f.recorded.push index else f.recorded
  count := f.count + 1

end Failures

namespace Circuit

/-- What a solve of the circuit reads. -/
def context (s : Circuit c k) (functions : HintTable) : Context c :=
  ⟨s.table, functions, s.hints⟩

/-- What to show when the gate at an index fails: its diagnostic, or else the
    gate itself. -/
def diagnose (s : Circuit c k) (index : Nat) (g : Gate k) (solution : Solution c) :
    Except Fault String :=
  match s.debugInfo? index with
  | some entry => solution.render s.table entry
  | none => g.describe s.table solution

/-- Visits the gate at an index. -/
def visitGate (s : Circuit c k) (functions : HintTable) (force : Bool) (index : Nat)
    (g : Gate k) (failures : Failures) : Solving c Failures := do
  match ← g.solve (s.context functions) with
  | .satisfied => return failures
  | .unsolvable => Solving.fail (.unsolvableConstraint index)
  | .unsatisfied => do
    let detail ← Solving.read (s.diagnose index g)
    if force then
      Solving.report (.unsatisfied index detail)
      return failures.note index
    else Solving.fail (.unsatisfiedConstraint index detail)

/-- Visits gates that are counted from `index`. -/
def visitGates (s : Circuit c k) (functions : HintTable) (force : Bool) :
    (index : Nat) → List (Gate k) → Failures → Solving c Failures
  | _, [], failures => return failures
  | index, g :: rest, failures => do
    let failures ← s.visitGate functions force index g failures
    s.visitGates functions force (index + 1) rest failures

/-- The wires with a producer that are unsolved, in increasing order. -/
def pendingWires (s : Circuit c k) (solution : Solution c) :
    Except Fault (List (WireId × HintCall)) := do
  let unsolved ← s.hints.entries.filterM fun e => return !(← solution.isSolved e.1)
  return Order.sort (fun a b => a.1.index ≤ b.1.index) unsolved

/-- Runs the hint calls behind wires. -/
def runPending (ctx : Context c) : List (WireId × HintCall) → Solving c Unit
  | [] => return
  | (w, call) :: rest => do
    solveWithHint ctx w call
    runPending ctx rest

/-- Solves the wires of a circuit whose inputs are solved. -/
def run (s : Circuit c k) (functions : HintTable) (force : Bool) : Solving c Failures := do
  let failures ← s.visitGates functions force 0 s.gates.toList .none
  runPending (s.context functions) (← Solving.read s.pendingWires)
  return failures

end Circuit

end CircuitWitness
