import CircuitWitness.Proofs.Circuit.Construction
import CircuitWitness.Proofs.Solver.Execution
import CircuitWitness.Proofs.Solver.Checks

/-! # What a hint call does

    A wire that is asked for is solved already, or the call behind it is made
    (`Requested`).  A call that passes its checks ends in one of four ways
    (`CallEnds`): an input cannot be read, the function fails, an output wire
    cannot be solved, or all output wires are solved.  Only in the last case does
    the solve go on, and then the function has run once, on the values that its
    inputs have under every valuation that agrees with the solution.
-/

namespace CircuitWitness

open Solving

variable {c : Curve}

/-! ## Running a call -/

namespace HintFunction

/-- How many integers a call of the function borrows. -/
def nIntegers (h : HintFunction) (call : HintCall) : Nat :=
  call.inputs.length + h.nOutputs call.inputs.length

/-- The outputs as they are handed to the function. -/
def zeros (h : HintFunction) (call : HintCall) : List Nat :=
  List.replicate (h.nOutputs call.inputs.length) 0

end HintFunction

namespace SolveState

/-- The state after a call that borrowed `n` integers and read only `xs` of its
    inputs. -/
def afterRefusal (st : SolveState c) (n : Nat) (xs : List Nat) : SolveState c where
  solution := st.solution
  pool := (st.pool.take n).2.giveBack (xs ++ (List.replicate n 0).drop xs.length)
  trace := st.trace.push (.borrowed n)

/-- The state after a run that left the outputs `outs` and this solution. -/
def afterRun (st : SolveState c) (run : Invocation) (outs : List Nat) (solution : Solution c) :
    SolveState c where
  solution := solution
  pool := (st.pool.take (run.function.nIntegers run.call)).2.giveBack (run.inputs ++ outs)
  trace := (st.trace.push (.borrowed (run.function.nIntegers run.call))).push (.called run)

@[simp] theorem solution_afterRun (st : SolveState c) (run : Invocation) (outs : List Nat)
    (solution : Solution c) : (st.afterRun run outs solution).solution = solution := rfl

end SolveState

/-- How a call for `w` ends that passed its checks. -/
inductive CallEnds (ctx : Context c) (w : WireId) (call : HintCall) (h : HintFunction)
    (st : SolveState c) : Except (Stop SolverError) Unit → SolveState c → Prop where
  /-- An input cannot be read. -/
  | refused {stop : Stop SolverError} {xs : List Nat}
      (hread : st.solution.readInputs ctx.table call.id call.inputs = (.error stop, xs)) :
      CallEnds ctx w call h st (.error stop) (st.afterRefusal (h.nIntegers call) xs)
  /-- The function fails. -/
  | failed {xs outs : List Nat} {e : HintError}
      (hread : st.solution.readInputs ctx.table call.id call.inputs = (.ok (), xs))
      (hcall : h.call c xs (h.zeros call) = (outs, .error e)) :
      CallEnds ctx w call h st (.error (.error (.hintFailed h.name e)))
        (st.afterRun ⟨h, w, call, xs, h.zeros call⟩ outs st.solution)
  /-- An output wire cannot be solved. -/
  | broke {xs outs : List Nat} {f : Fault} {solution : Solution c}
      (hread : st.solution.readInputs ctx.table call.id call.inputs = (.ok (), xs))
      (hcall : h.call c xs (h.zeros call) = (outs, .ok ()))
      (hset : st.solution.setAll (call.wires.zip (outs.map Scalar.ofNat)) =
        (.error f, solution)) :
      CallEnds ctx w call h st (.error (.fault f))
        (st.afterRun ⟨h, w, call, xs, h.zeros call⟩ outs solution)
  /-- The output wires are solved. -/
  | ran {xs outs : List Nat} {solution : Solution c}
      (hread : st.solution.readInputs ctx.table call.id call.inputs = (.ok (), xs))
      (hcall : h.call c xs (h.zeros call) = (outs, .ok ()))
      (hset : st.solution.setAll (call.wires.zip (outs.map Scalar.ofNat)) =
        (.ok (), solution)) :
      CallEnds ctx w call h st (.ok ())
        (st.afterRun ⟨h, w, call, xs, h.zeros call⟩ outs solution)

theorem callEnds (ctx : Context c) (w : WireId) (call : HintCall) (h : HintFunction)
    (st : SolveState c) :
    CallEnds ctx w call h st (exec (runCall ctx w call h) st).1
      (exec (runCall ctx w call h) st).2 := by
  -- what is borrowed beyond the inputs is zero
  have hzeros : (st.pool.take (h.nIntegers call)).1.drop call.inputs.length = h.zeros call := by
    rw [ScratchPool.take_fst, List.drop_replicate, HintFunction.nIntegers, Nat.add_sub_cancel_left]
    rfl
  have hexec : exec (runCall ctx w call h) st = runCall ctx w call h st := rfl
  rw [hexec, runCall]
  cases hread : st.solution.readInputs ctx.table call.id call.inputs with
  | mk r xs =>
    cases r with
    | error stop =>
      have hend : CallEnds ctx w call h st _ _ := .refused hread
      rw [SolveState.afterRefusal, ← ScratchPool.take_fst st.pool] at hend
      exact hend
    | ok u =>
      change st.solution.readInputs ctx.table call.id call.inputs = (.ok (), xs) at hread
      have hdrop : (st.pool.take (call.inputs.length + h.nOutputs call.inputs.length)).1.drop
          call.inputs.length = h.zeros call := hzeros
      simp only [hdrop]
      cases hcall : h.call c xs (h.zeros call) with
      | mk outs r =>
        cases r with
        | error e => exact .failed hread hcall
        | ok u =>
          cases hset : st.solution.setAll (call.wires.zip (outs.map Scalar.ofNat)) with
          | mk r solution =>
            simp only [Prod.swap, hset]
            cases r with
            | error f => exact .broke hread hcall hset
            | ok u => exact .ran hread hcall hset

/-! ## Calls as actions -/

/-- A call is made for an unsolved wire that it produces, and passes its checks. -/
structure Asked (ctx : Context c) (st : SolveState c) (w : WireId) (call : HintCall)
    (h : HintFunction) : Prop where
  produces : (w, call) ∈ ctx.hints.entries
  lt : w.index < st.solution.nWires
  unsolved : st.solution.get? w = none
  handler : ctx.functions.handler w call = .ok h

/-- A call ran and solved its wires. -/
def HintRan (ctx : Context c) (st st' : SolveState c) : Prop :=
  ∃ w call h, Asked ctx st w call h ∧ CallEnds ctx w call h st (.ok ()) st'

/-- A call passed its checks and stopped the solve. -/
def HintStopped (ctx : Context c) (st st' : SolveState c) : Prop :=
  ∃ w call h stop, Asked ctx st w call h ∧ CallEnds ctx w call h st (.error stop) st'

/-- How the request for the wire `w` of a call ends. -/
inductive Requested (ctx : Context c) (w : WireId) (call : HintCall) (st : SolveState c) :
    Except (Stop SolverError) Unit → SolveState c → Prop where
  /-- There is no such wire. -/
  | absent {f : Fault} (hfault : st.solution.isSolved w = .error f) :
      Requested ctx w call st (.error (.fault f)) st
  /-- The wire is solved already. -/
  | answered (hlt : w.index < st.solution.nWires) (hsome : (st.solution.get? w).isSome) :
      Requested ctx w call st (.ok ()) st
  /-- No function takes the call. -/
  | rejected {e : SolverError} (hhandler : ctx.functions.handler w call = .error e) :
      Requested ctx w call st (.error (.error e)) st
  /-- The call is made. -/
  | called {h : HintFunction} {r : Except (Stop SolverError) Unit} {st' : SolveState c}
      (hlt : w.index < st.solution.nWires) (hnone : st.solution.get? w = none)
      (hhandler : ctx.functions.handler w call = .ok h)
      (hends : CallEnds ctx w call h st r st') : Requested ctx w call st r st'

theorem requested (ctx : Context c) (w : WireId) (call : HintCall) (st : SolveState c) :
    Requested ctx w call st (exec (solveWithHint ctx w call) st).1
      (exec (solveWithHint ctx w call) st).2 := by
  rw [solveWithHint, exec_bind, exec_read]
  cases hsolved : st.solution.isSolved w with
  | error f => exact .absent hsolved
  | ok b =>
    obtain ⟨hlt, hb⟩ := Solution.isSolved_eq_ok_iff.1 hsolved
    -- the function is looked up for an unsolved wire only
    cases b with
    | true => exact .answered hlt hb
    | false =>
      have hnone : st.solution.get? w = none := by simpa using hb
      cases hhandler : ctx.functions.handler w call with
      | error e => exact .rejected hhandler
      | ok h => exact .called hlt hnone hhandler (callEnds ctx w call h st)

theorem requested_of_exec {ctx : Context c} {w : WireId} {call : HintCall} {st st' : SolveState c}
    {r : Except (Stop SolverError) Unit}
    (hexec : exec (solveWithHint ctx w call) st = (r, st')) : Requested ctx w call st r st' := by
  have hends := requested ctx w call st
  rw [hexec] at hends
  exact hends

theorem follows_solveWithHint {ctx : Context c} {w : WireId} {call : HintCall}
    (hmem : (w, call) ∈ ctx.hints.entries) :
    Follows (HintRan ctx) (HintStopped ctx) (solveWithHint ctx w call) := by
  intro st
  cases hexec : exec (solveWithHint ctx w call) st with
  | mk r st' =>
    cases requested_of_exec hexec with
    | absent hfault => exact ⟨st, .refl, .inl rfl⟩
    | answered hlt hsome => exact .refl
    | rejected hhandler => exact ⟨st, .refl, .inl rfl⟩
    | @called h _ _ hlt hnone hhandler hends =>
      have hasked : Asked ctx st w call h := ⟨hmem, hlt, hnone, hhandler⟩
      -- whether the call is a run or a stop is decided by its result
      cases r with
      | ok u => exact .single ⟨w, call, h, hasked, hends⟩
      | error stop => exact ⟨st, .refl, .inr ⟨w, call, h, stop, hasked, hends⟩⟩

/-- Asking for the wire of a term does what the call behind the wire does, if the wire is
    unsolved. -/
theorem path_resolve {A H : SolveState c → SolveState c → Prop} {ctx : Context c} {t : Term}
    {st : SolveState c}
    (hcall : ∀ call, t.isVirtual = false → st.solution.isSolved t.wire = .ok false →
      ctx.hints.producer? t.wire = some call →
      Path A H st (exec (solveWithHint ctx t.wire call) st)) :
    Path A H st (exec (resolve ctx t) st) := by
  unfold resolve
  split
  · exact follows_pure () st
  · rename_i hvirt
    apply path_bind (follows_read _ st)
    intro solved mid hread
    obtain ⟨hsolved, rfl⟩ := exec_read_eq_ok_iff.1 hread
    split
    · exact follows_pure () mid
    · rename_i hunsolved
      rw [Bool.not_eq_true] at hvirt hunsolved
      rw [hunsolved] at hsolved
      cases hprod : ctx.hints.producer? t.wire with
      | none => exact follows_pure () mid
      | some call => exact hcall call hvirt hsolved hprod

theorem follows_resolve_of_calls {A H : SolveState c → SolveState c → Prop} {ctx : Context c}
    (hcall : ∀ w call, (w, call) ∈ ctx.hints.entries → Follows A H (solveWithHint ctx w call))
    (t : Term) : Follows A H (resolve ctx t) :=
  fun st => path_resolve fun call _ _ hprod => hcall t.wire call (Assoc.mem_of_lookup hprod) st

theorem follows_resolve (ctx : Context c) (t : Term) :
    Follows (HintRan ctx) (HintStopped ctx) (resolve ctx t) :=
  follows_resolve_of_calls (fun _ _ hmem => follows_solveWithHint hmem) t

/-! ## Errors of calls -/

/-- The error comes from a hint call. -/
def SolverError.FromHint : SolverError → Prop
  | missingHint .. => True
  | hintArity .. => True
  | unresolvedDependency .. => True
  | hintFailed .. => True
  | _ => False

/-- The only error in adding up the terms of an input is a wire that is unsolved. -/
theorem Solution.readTerms_eq_unresolved {table : CoefficientTable c} {s : Solution c}
    {id : HintId} {sum : Scalar c} {terms : List Term} {e : SolverError}
    (h : s.readTerms table id sum terms = .error (.error e)) :
    ∃ w, e = .unresolvedDependency w id := by
  induction terms generalizing sum with
  | nil => cases h
  | cons t rest ih =>
    -- once a term is read, only the rest can be unresolved
    have hgo : (liftM (s.computeTerm table t) >>= fun y =>
        s.readTerms table id (sum + y) rest : Except (Stop SolverError) (Scalar c)) =
          .error (.error e) → ∃ w, e = .unresolvedDependency w id := by
      intro h
      rw [liftM_eq_mapError] at h
      rcases bind_eq_error_iff.1 h with h | ⟨y, -, h⟩
      · obtain ⟨f, -, habs⟩ := mapError_eq_error_iff.1 h
        cases habs
      · exact ih h
    rw [readTerms] at h
    by_cases hvirt : t.isVirtual = true
    · simp only [hvirt, Bool.not_true, Bool.false_eq_true, if_false] at h
      exact hgo h
    · simp only [hvirt, Bool.not_false, if_true, liftM_eq_mapError] at h
      rcases bind_eq_error_iff.1 h with h | ⟨solved, -, h⟩
      · obtain ⟨f, -, habs⟩ := mapError_eq_error_iff.1 h
        cases habs
      · cases solved with
        | true => exact hgo h
        | false =>
          cases h
          exact ⟨t.wire, rfl⟩

theorem Solution.readInputs_eq_unresolved {table : CoefficientTable c} {s : Solution c}
    {id : HintId} {inputs : List LinearCombination} {e : SolverError}
    (h : (s.readInputs table id inputs).1 = .error (.error e)) :
    ∃ w, e = .unresolvedDependency w id := by
  induction inputs with
  | nil => cases h
  | cons lc rest ih =>
    rw [readInputs] at h
    cases hin : s.readInput table id lc with
    | ok x =>
      rw [hin] at h
      exact ih h
    | error stop =>
      rw [hin] at h
      cases h
      -- an unset combination faults, so it is the terms that are unresolved
      unfold readInput at hin
      rw [liftM_eq_mapError] at hin
      rcases bind_eq_error_iff.1 hin with hin | ⟨_, -, hin⟩
      · obtain ⟨f, -, habs⟩ := mapError_eq_error_iff.1 hin
        cases habs
      · rcases bind_eq_error_iff.1 hin with hin | ⟨_, -, hin⟩
        · exact readTerms_eq_unresolved hin
        · cases hin

theorem HintTable.handler_fromHint {t : HintTable} {w : WireId} {call : HintCall}
    {e : SolverError} (h : t.handler w call = .error e) : e.FromHint := by
  cases handler_eq_error_iff.1 h with
  | missing hfind => exact trivial
  | inputs hfind harity hcount => exact trivial
  | outputs hfind haccepts hcount => exact trivial

theorem raises_solveWithHint (ctx : Context c) (w : WireId) (call : HintCall) :
    Raises SolverError.FromHint (solveWithHint ctx w call) := by
  intro st e h
  -- of the ways in which a request ends, those without an error are left out
  have hends := requested ctx w call st
  rw [h] at hends
  generalize (exec (solveWithHint ctx w call) st).2 = st' at hends
  cases hends with
  | rejected hhandler => exact HintTable.handler_fromHint hhandler
  | called _ _ _ hends =>
    cases hends with
    | refused hread =>
      obtain ⟨u, rfl⟩ := Solution.readInputs_eq_unresolved (congrArg Prod.fst hread)
      exact trivial
    | failed hread hcall => exact trivial

/-- Asking for the wire of a term stops as the call behind the wire does. -/
theorem stops_resolve {P : SolverError → SolveState c → Prop} {ctx : Context c} {t : Term}
    (hcall : ∀ call, ctx.hints.producer? t.wire = some call →
      Stops P (solveWithHint ctx t.wire call)) : Stops P (resolve ctx t) := by
  unfold resolve
  split
  · exact stops_pure ()
  · refine stops_bind (stops_read _) ?_
    intro solved
    split
    · exact stops_pure ()
    · cases hprod : ctx.hints.producer? t.wire with
      | none => exact stops_pure ()
      | some call => exact hcall call hprod

theorem raises_resolve (ctx : Context c) (t : Term) :
    Raises SolverError.FromHint (resolve ctx t) :=
  raises_iff.2 (stops_resolve fun call _ => raises_iff.1 (raises_solveWithHint ctx t.wire call))

/-! ## What a call leaves behind -/

theorem CallEnds.extends {ctx : Context c} {w : WireId} {call : HintCall} {h : HintFunction}
    {st st' : SolveState c} {r : Except (Stop SolverError) Unit}
    (hends : CallEnds ctx w call h st r st') : st.solution.Extends st'.solution := by
  cases hends with
  | refused hread => exact .refl _
  | failed hread hcall => exact .refl _
  | broke hread hcall hset => exact Solution.extends_of_setAll hset
  | ran hread hcall hset => exact Solution.extends_of_setAll hset

theorem HintRan.extends {ctx : Context c} {st st' : SolveState c} (h : HintRan ctx st st') :
    st.solution.Extends st'.solution := by
  obtain ⟨w, call, h, -, hends⟩ := h
  exact hends.extends

theorem HintStopped.extends {ctx : Context c} {st st' : SolveState c}
    (h : HintStopped ctx st st') : st.solution.Extends st'.solution := by
  obtain ⟨w, call, h, stop, -, hends⟩ := h
  exact hends.extends

theorem HintRan.counted {ctx : Context c} {st st' : SolveState c} (h : HintRan ctx st st')
    (hst : st.solution.Counted) : st'.solution.Counted := by
  obtain ⟨w, call, h, -, hends⟩ := h
  cases hends with
  | ran hread hcall hset => exact Solution.counted_of_setAll hset hst

/-- A function that takes a call fills as many outputs as the call has wires. -/
theorem HintTable.length_outputs {t : HintTable} {w : WireId} {call : HintCall}
    {h : HintFunction} (hhandler : t.handler w call = .ok h) {xs outs : List Nat}
    {r : Except HintError Unit} (hcall : h.call c xs (h.zeros call) = (outs, r)) :
    outs.length = call.wires.length := by
  obtain ⟨-, -, hshape⟩ := handler_eq_ok_iff.1 hhandler
  have hlen := h.body.length_run c xs (h.zeros call)
  rw [HintFunction.call] at hcall
  rw [hcall, HintFunction.zeros, List.length_replicate, hshape] at hlen
  exact hlen

theorem Asked.length_outputs {ctx : Context c} {st : SolveState c} {w : WireId}
    {call : HintCall} {h : HintFunction} (hasked : Asked ctx st w call h) {xs outs : List Nat}
    {r : Except HintError Unit} (hcall : h.call c xs (h.zeros call) = (outs, r)) :
    outs.length = call.wires.length :=
  HintTable.length_outputs hasked.handler hcall

theorem map_fst_zip_map {call : HintCall} {outs : List Nat}
    (hlen : outs.length = call.wires.length) :
    (call.wires.zip (outs.map (Scalar.ofNat (c := c)))).map Prod.fst = call.wires := by
  apply List.map_fst_zip
  rw [List.length_map, hlen]

/-- A run finds the wires of the call unsolved and leaves them solved. -/
theorem wires_of_ran {s solution : Solution c} {call : HintCall} {outs : List Nat}
    (hlen : outs.length = call.wires.length)
    (hset : s.setAll (call.wires.zip (outs.map Scalar.ofNat)) = (.ok (), solution))
    {u : WireId} (hu : u ∈ call.wires) : s.get? u = none ∧ (solution.get? u).isSome := by
  rw [← map_fst_zip_map (c := c) hlen] at hu
  obtain ⟨⟨u', x⟩, hmem, rfl⟩ := List.mem_map.1 hu
  obtain ⟨hnone, hx⟩ := Solution.get?_of_setAll hset hmem
  exact ⟨hnone, by rw [hx]; rfl⟩

theorem wires_of_not_mem {s solution : Solution c} {call : HintCall} {outs : List Nat}
    {r : Except Fault Unit}
    (hset : s.setAll (call.wires.zip (outs.map Scalar.ofNat)) = (r, solution)) {u : WireId}
    (hu : u ∉ call.wires) : solution.get? u = s.get? u := by
  have hne : u ∉ (call.wires.zip (outs.map (Scalar.ofNat (c := c)))).map Prod.fst := by
    intro hmem
    obtain ⟨⟨u', x⟩, hzip, rfl⟩ := List.mem_map.1 hmem
    exact hu (List.of_mem_zip hzip).1
  have hget := Solution.get?_setAll_of_ne (s := s) hne
  rw [hset] at hget
  exact hget

/-- After a call was made for a wire the wire is solved. -/
theorem solved_of_solveWithHint {ctx : Context c} {calls : List HintCall}
    (hrep : ctx.hints.Represents calls) {w : WireId} {call : HintCall}
    (hmem : (w, call) ∈ ctx.hints.entries) {st st' : SolveState c}
    (hexec : exec (solveWithHint ctx w call) st = (.ok (), st')) :
    w.index < st'.solution.nWires ∧ (st'.solution.get? w).isSome := by
  cases requested_of_exec hexec with
  | answered hlt hsome => exact ⟨hlt, hsome⟩
  | called hlt hnone hhandler hends =>
    -- the wire asked for is one of the outputs, all of which the call has solved
    have hasked := Asked.mk hmem hlt hnone hhandler
    refine ⟨by rw [hends.extends.nWires_eq]; exact hlt, ?_⟩
    cases hends with
    | ran hread hcall hset =>
      have hwire := (hrep.mem_entries_iff.1 hmem).2
      exact (wires_of_ran (hasked.length_outputs hcall) hset hwire).2

/-- After a term was resolved its wire is solved, unless no call produces it. -/
theorem solved_of_resolve {ctx : Context c} {calls : List HintCall}
    (hrep : ctx.hints.Represents calls) {t : Term} {st st' : SolveState c}
    (hexec : exec (resolve ctx t) st = (.ok (), st')) (hreal : t.isVirtual = false) :
    t.wire.index < st'.solution.nWires ∧
      ((st'.solution.get? t.wire).isSome ∨ ctx.hints.producer? t.wire = none) := by
  unfold resolve at hexec
  rw [if_neg (by simp [hreal]), exec_bind_eq_ok_iff] at hexec
  obtain ⟨b, mid, hread, hexec⟩ := hexec
  obtain ⟨hsolved, rfl⟩ := exec_read_eq_ok_iff.1 hread
  obtain ⟨hlt, hb⟩ := Solution.isSolved_eq_ok_iff.1 hsolved
  -- a real term is looked up by its wire: there is a value, a call, or nothing to ask
  cases b with
  | true =>
    cases hexec
    exact ⟨hlt, .inl hb⟩
  | false =>
    cases hprod : ctx.hints.producer? t.wire with
    | none =>
      rw [hprod] at hexec
      cases hexec
      exact ⟨hlt, .inr rfl⟩
    | some call =>
      rw [hprod] at hexec
      obtain ⟨hlt', hsome⟩ :=
        solved_of_solveWithHint hrep (Assoc.mem_of_lookup hprod) hexec
      exact ⟨hlt', .inl hsome⟩

/-! ## Faults of calls in bounds -/

/-- Every input of the call is set and can be evaluated. -/
def HintCall.InputsInBounds (table : CoefficientTable c) (n : Nat) (call : HintCall) : Prop :=
  ∀ lc ∈ call.inputs, lc.terms ≠ [] ∧ ∀ t ∈ lc.terms, t.InBounds table n

/-- The wires of the call can be solved together. -/
def HintCall.Free (call : HintCall) (s : Solution c) : Prop :=
  call.wires.Nodup ∧ ∀ w ∈ call.wires, w.index < s.nWires ∧ s.get? w = none

/-- Every input of the call can be evaluated if it is set, and it may be unset if that
    fault is one of `P`. -/
def HintCall.InputsUpTo (P : Fault → Prop) (table : CoefficientTable c) (n : Nat)
    (call : HintCall) : Prop :=
  ∀ lc ∈ call.inputs, (lc.terms ≠ [] ∨ P .unsetCombination) ∧ ∀ t ∈ lc.terms, t.InBounds table n

/-- Where its wires are free, a call solves them without a fault. -/
theorem HintCall.Free.exists_setAll {s : Solution c} {call : HintCall} (hfree : call.Free s)
    {outs : List Nat} (hlen : outs.length = call.wires.length) :
    ∃ solution, s.setAll (call.wires.zip (outs.map Scalar.ofNat)) = (.ok (), solution) := by
  have hwires := map_fst_zip_map (c := c) hlen
  exact Solution.exists_setAll (by rw [hwires]; exact hfree.1) (by rw [hwires]; exact hfree.2)

theorem Asked.faults {P : Fault → Prop} {ctx : Context c} {w : WireId} {call : HintCall}
    {h : HintFunction} {st st' : SolveState c} (hasked : Asked ctx st w call h)
    (hinputs : call.InputsUpTo P ctx.table st.solution.nWires) (hfree : call.Free st.solution)
    {f : Fault} (hends : CallEnds ctx w call h st (.error (.fault f)) st') : P f := by
  cases hends with
  | refused hread =>
    exact Solution.readInputs_faults (fun lc hlc => (hinputs lc hlc).1)
      (fun lc hlc => (hinputs lc hlc).2) (congrArg Prod.fst hread)
  | broke hread hcall hset =>
    obtain ⟨solution, hok⟩ := hfree.exists_setAll (hasked.length_outputs hcall)
    rw [hset] at hok
    cases hok

theorem faults_solveWithHint {P : Fault → Prop} {ctx : Context c} {w : WireId} {call : HintCall}
    {st : SolveState c} (hmem : (w, call) ∈ ctx.hints.entries)
    (hlt : w.index < st.solution.nWires)
    (hinputs : call.InputsUpTo P ctx.table st.solution.nWires)
    (hfree : st.solution.get? w = none → call.Free st.solution) :
    Faults P (solveWithHint ctx w call) st := by
  intro f habs
  have hends := requested ctx w call st
  rw [habs] at hends
  generalize (exec (solveWithHint ctx w call) st).2 = st' at hends
  -- the wire is in range, so that only a call that is made can fault
  cases hends with
  | absent hfault =>
    rw [Solution.isSolved_eq_ok_iff.2 ⟨hlt, rfl⟩] at hfault
    cases hfault
  | called _ hnone hhandler hends =>
    have hasked := Asked.mk hmem hlt hnone hhandler
    exact hasked.faults hinputs (hfree hnone) hends

/-- A call with an unsolved wire has solved none of its wires. -/
def Unbegun (calls : List HintCall) (s : Solution c) : Prop :=
  ∀ call ∈ calls, ∀ w ∈ call.wires, s.get? w = none → call.Free s

theorem HintCall.Free.of_unchanged {call : HintCall} {s t : Solution c} (h : call.Free s)
    (hn : t.nWires = s.nWires) (hsame : ∀ w ∈ call.wires, t.get? w = s.get? w) :
    call.Free t := by
  refine ⟨h.1, ?_⟩
  intro w hw
  rw [hn, hsame w hw]
  exact h.2 w hw

theorem HintRan.unbegun {ctx : Context c} {calls : List HintCall}
    (hrep : ctx.hints.Represents calls) {st st' : SolveState c} (h : HintRan ctx st st')
    (hst : Unbegun calls st.solution) : Unbegun calls st'.solution := by
  have hn := h.extends.nWires_eq
  obtain ⟨u, ran, h, hasked, hends⟩ := h
  obtain ⟨hran, -⟩ := hrep.mem_entries_iff.1 hasked.produces
  cases hends with
  | @ran xs outs solution hread hcall hset =>
    rw [SolveState.solution_afterRun] at hn ⊢
    -- the wires of a call are solved together, and those of other calls are left alone
    intro call hmem w hw hnone
    by_cases hsame : call = ran
    · -- the call that ran has solved all its wires
      have hsolved := (wires_of_ran (hasked.length_outputs hcall) hset (hsame ▸ hw)).2
      rw [hnone] at hsolved
      cases hsolved
    · -- no other call has one of these wires
      have hkept : ∀ v ∈ call.wires, solution.get? v = st.solution.get? v := fun v hv =>
        wires_of_not_mem hset fun hv' => hsame (hrep.eq_of_mem_wires hmem hv hran hv')
      have hfree := hst call hmem w hw (by rw [← hkept w hw]; exact hnone)
      exact hfree.of_unchanged hn hkept

/-- A run leaves a wire without a producer as it is. -/
theorem HintRan.get?_of_unproduced {ctx : Context c} {calls : List HintCall}
    (hrep : ctx.hints.Represents calls) {st st' : SolveState c} (h : HintRan ctx st st')
    {w : WireId} (hw : ctx.hints.producer? w = none) :
    st'.solution.get? w = st.solution.get? w := by
  obtain ⟨u, call, h, hasked, hends⟩ := h
  obtain ⟨hran, -⟩ := hrep.mem_entries_iff.1 hasked.produces
  cases hends with
  | ran hread hcall hset =>
    exact wires_of_not_mem hset (hrep.producer?_eq_none_iff.1 hw call hran)

/-- What the hint calls of a circuit need so that none of them faults. -/
structure Context.Sound (ctx : Context c) (calls : List HintCall) (n : Nat) : Prop where
  represents : ctx.hints.Represents calls
  inputs : ∀ call ∈ calls, call.wires ≠ [] → call.InputsInBounds ctx.table n

/-- What the hint calls of a circuit need so that every fault of them is one of `P`. -/
structure Context.SoundUpTo (P : Fault → Prop) (ctx : Context c) (calls : List HintCall)
    (n : Nat) : Prop where
  represents : ctx.hints.Represents calls
  inputs : ∀ call ∈ calls, call.wires ≠ [] → call.InputsUpTo P ctx.table n

theorem Context.Sound.upTo {ctx : Context c} {calls : List HintCall} {n : Nat}
    (h : ctx.Sound calls n) (P : Fault → Prop) : ctx.SoundUpTo P calls n :=
  ⟨h.represents, fun call hmem hne lc hlc =>
    ⟨.inl (h.inputs call hmem hne lc hlc).1, (h.inputs call hmem hne lc hlc).2⟩⟩

theorem faults_resolve {P : Fault → Prop} {ctx : Context c} {calls : List HintCall}
    {st : SolveState c} (hctx : ctx.SoundUpTo P calls st.solution.nWires)
    (hst : Unbegun calls st.solution) {t : Term}
    (ht : t.InBounds ctx.table st.solution.nWires) : Faults P (resolve ctx t) st := by
  unfold resolve
  split
  · exact faults_pure () st
  · rename_i hvirt
    have hlt := ht.2 (by simpa using hvirt)
    refine faults_bind ?_ ?_
    · exact faults_read_of_ok ⟨_, Solution.isSolved_eq_ok_iff.2 ⟨hlt, rfl⟩⟩
    · intro b mid hread
      obtain ⟨-, rfl⟩ := exec_read_eq_ok_iff.1 hread
      -- a solved wire and one of no call leave nothing to do
      split
      · exact faults_pure () mid
      · cases hprod : ctx.hints.producer? t.wire with
        | none => exact faults_pure () mid
        | some call =>
          obtain ⟨hmem, hw⟩ := hctx.represents.producer?_eq_some_iff.1 hprod
          exact faults_solveWithHint (Assoc.mem_of_lookup hprod) hlt
            (hctx.inputs call hmem (List.ne_nil_of_mem hw)) (hst call hmem t.wire hw)

end CircuitWitness
