import CircuitWitness.Circuit.Symbolic
import CircuitWitness.Solver.Witness
import CircuitWitness.Proofs.Circuit.Construction
import CircuitWitness.Proofs.Circuit.WellFormed
import CircuitWitness.Proofs.Solver.Knowledge
import CircuitWitness.Proofs.Solver.Execution
import CircuitWitness.Proofs.Solver.Checks
import CircuitWitness.Proofs.Solver.Call
import CircuitWitness.Proofs.Solver.Isolation
import CircuitWitness.Proofs.Solver.Search
import CircuitWitness.Proofs.Solver.Visit
import CircuitWitness.Proofs.Solver.Run
import CircuitWitness.Proofs.Solver.Solve
import CircuitWitness.Proofs.Exactness
import CircuitWitness.Proofs.Solver.Ledger
import CircuitWitness.Proofs.HintConsistency
import CircuitWitness.Proofs.Solver.Rendering
import CircuitWitness.Proofs.Safety
import CircuitWitness.Proofs.Uniqueness
import CircuitWitness.Proofs.Solver.Parallel
import CircuitWitness.Proofs.Leakage
import CircuitWitness.Proofs.Solver.Warnings
import CircuitWitness.Proofs.Forced
import CircuitWitness.Proofs.AllOrNone
import CircuitWitness.Proofs.Solver.Hintless
import CircuitWitness.Proofs.Agreement
import CircuitWitness.Proofs.Solver.Change
import CircuitWitness.Proofs.Bookkeeping
import CircuitWitness.Proofs.Solver.Lookup
import CircuitWitness.Proofs.Identification
import CircuitWitness.Proofs.CallOrder
import CircuitWitness.Proofs.Logging
import CircuitWitness.Proofs.Borrowing
import CircuitWitness.Proofs.Release
import CircuitWitness.Proofs.Constants
import CircuitWitness.Proofs.Producers
import CircuitWitness.Proofs.Defects
import CircuitWitness.Proofs.Solver.Scan
import CircuitWitness.Proofs.Determination
import CircuitWitness.Proofs.Requests
import CircuitWitness.Proofs.Evaluation
import CircuitWitness.Proofs.Spans
import CircuitWitness.Proofs.Diagnostics
import CircuitWitness.Proofs.Invocations
import CircuitWitness.Proofs.CanonicalOrder
import CircuitWitness.Proofs.Symbols
import CircuitWitness.Proofs.Quotients
import CircuitWitness.Proofs.Digits
import CircuitWitness.Proofs.Identities
import CircuitWitness.Proofs.Placement
import CircuitWitness.Proofs.Registration
import CircuitWitness.Proofs.Solver.Served
import CircuitWitness.Proofs.ZeroTest
import CircuitWitness.Proofs.Placeholders
