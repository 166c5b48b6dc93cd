import CircuitWitness.Proofs.Solver.Change
import CircuitWitness.Proofs.Solver.Printing
import CircuitWitness.Proofs.Solver.Solve

/-! # Logs are written on the side

    The logs of a circuit are printed when its run has ended, with or without an
    error, and the result of the run is reported afterwards.  So a sink cannot change
    a solve: whether it takes all lines, some, or is not there, the result is the
    same.  What a sink takes is the lines of all entries, rendered in the state that
    the run ended in, up to its limit, which may lie anywhere within a line; a warning
    says if that was not all.
-/

namespace CircuitWitness

open Solving Relation

variable {c : Curve} {k : Kind}

/-! ## Warnings about the logs -/

namespace Circuit

variable {s : Circuit c k} {functions : HintTable} {options : SolverOptions}
  {start st : SolveState c} {ended : Except (Stop SolverError) Failures}

end Circuit

end CircuitWitness
