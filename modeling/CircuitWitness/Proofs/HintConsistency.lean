import CircuitWitness.Proofs.Solver.Ledger

/-! # Hints are consistent with the witness

    A call is asked for by any term of any gate, through any of its wires, or
    only after the last gate.  It runs once all the same, and no gate solves one
    of its wires.  On the witness its inputs have the values that its function
    was run on, and its wires have the values that the function left.
-/

namespace CircuitWitness

open Solving Relation

variable {c : Curve} {k : Kind}

open Circuit in
/-- In the trace of a solve no accepted call runs twice, however the solve ends.  If
    there is a witness, every accepted call with a wire has run once, on zeros and on the
    values that its inputs have in the witness, and the witness holds its outputs. -/
theorem solve_runs_hints {calls : List HintCall} {s : Circuit c k} (hbuilt : Built calls s)
    (hvalid : s.validate = .ok ()) (assignment : List (Scalar c)) (registry : Registry)
    (options : SolverOptions) :
    (∀ call ∈ calls, (runsOf call (s.solve assignment registry options).trace).length ≤ 1) ∧
      ∀ w, (s.solve assignment registry options).result = .ok w →
        ∀ call ∈ calls, call.wires ≠ [] → ∃ run xs outs,
          runsOf call (s.solve assignment registry options).trace = [run] ∧
          run.function ∈ registry.functions ++ options.hintFunctions ∧
          run.function.id = call.id ∧
          call.inputs.mapM (evalCombination s.table w.values) = .ok xs ∧
          run.inputs = xs.map Scalar.val ∧
          run.outputs = List.replicate call.wires.length 0 ∧
          run.function.call c run.inputs run.outputs = (outs, .ok ()) ∧
          call.wires.mapM (wireValue w.values) = .ok (outs.map Scalar.ofNat) := by
  have hrep := hbuilt.represents
  have hs := validate_eq_ok_iff.1 hvalid
  constructor
  · intro call hmem
    rcases s.solve_cases assignment registry options with
      ⟨stop, -, hsolve⟩ | ⟨functions, start, hstarts, hsolve⟩
    · rw [hsolve]
      exact Nat.zero_le 1
    · rw [hsolve]
      have hledger := hstarts.ledger hrep hs
      cases hexec : exec (s.run functions options.force) start with
      | mk ended st =>
        have hpath := path_of_run hrep hexec
        rw [runsOf, invocations_solveFrom hexec]
        -- a stop in the middle of a call does not let it run again
        cases ended with
        | ok failures => exact (hledger.actions hrep hpath).at_most_once hmem
        | error stop =>
          obtain ⟨mid, hacts, hlast⟩ := hpath
          have hmid := hledger.actions hrep hacts
          rcases hlast with rfl | hstop
          · exact hmid.at_most_once hmem
          · exact hmid.at_most_once_stopped hrep hstop hmem
  · intro w h call hmem hne
    obtain ⟨functions, start, failures, st, hstarts, hexec, hall, rfl, htrace⟩ := solve_eq_ok h
    -- the run is over, so what was recorded of the call is final
    obtain ⟨run, outs, hran⟩ := hstarts.ran hrep hs hexec hall hmem hne
    obtain ⟨hin, hid⟩ := hstarts.find?_eq_some_iff.1 hran.function_eq
    obtain ⟨xs, hinputs, hxs, hwires⟩ := hran.evaluated
    rw [runsOf, htrace]
    exact ⟨run, xs, outs, hran.once, hin, hid, hinputs, hxs, hran.zeros, hran.call_eq, hwires⟩

/-- The call of the sample runs once, on the value of its input. -/
theorem solve_runs_hints_sample :
    ∃ w run xs, (Circuit.sample.solve [9, 2] .sample SolverOptions.standard.withoutOutput).result =
        .ok w ∧
      runsOf Circuit.sampleCall (Circuit.sample.solve [9, 2] .sample
        SolverOptions.standard.withoutOutput).trace = [run] ∧
      Circuit.sampleCall.inputs.mapM (evalCombination Circuit.sample.table w.values) = .ok xs ∧
      run.inputs = xs.map Scalar.val := by
  obtain ⟨w, hw, -⟩ := Circuit.solve_sample
  obtain ⟨-, hran⟩ := solve_runs_hints Circuit.built_sample Circuit.validate_sample [9, 2] .sample
    SolverOptions.standard.withoutOutput
  obtain ⟨run, xs, outs, honce, -, -, hinputs, hxs, -⟩ :=
    hran w hw Circuit.sampleCall List.mem_cons_self (by decide)
  exact ⟨w, run, xs, hw, honce, hinputs, hxs⟩

end CircuitWitness
