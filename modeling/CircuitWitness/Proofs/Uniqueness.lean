import CircuitWitness.Proofs.Exactness
import CircuitWitness.Proofs.Solver.Ledger

/-! # There is no other witness

    An unforced solve only ever draws conclusions: what it solves is forced by
    what it has solved before.  The one exception is a gate whose unknown drops
    out while the gate holds.  If no gate of a run leaves its unknown free in
    this way, then every admissible assignment agrees with the solution at any
    time of the run.  So the witness is the only admissible assignment, and if a
    constraint fails there is none.
-/

namespace CircuitWitness

open Solving Relation

variable {c : Curve} {k : Kind}

/-- The wires of the call hold what its function makes of its inputs. -/
def HintCall.HoldsIn (table : CoefficientTable c) (functions : List HintFunction)
    (values : Array (Scalar c)) (call : HintCall) : Prop :=
  ∃ fn ∈ functions, fn.id = call.id ∧ ∃ xs outs,
    call.inputs.mapM (evalCombination table values) = .ok xs ∧
    fn.call c (xs.map Scalar.val) (List.replicate call.wires.length 0) = (outs, .ok ()) ∧
    call.wires.mapM (wireValue values) = .ok (outs.map Scalar.ofNat)

namespace Circuit

/-- A full assignment with the one wire and the inputs under which every constraint and
    every hint call holds. -/
structure Admissible (s : Circuit c k) (assignment : List (Scalar c))
    (functions : List HintFunction) (values : Array (Scalar c)) : Prop where
  size_eq : values.size = s.nWires
  inputs : (1 :: assignment) <+: values.toList
  gates : ∀ g ∈ s.gates.toList, s.residual values g = .ok 0
  hints : ∀ call ∈ s.hints.calls, call.HoldsIn s.table functions values

/-- No gate that the solve visits leaves its unknown free. -/
def Pinned (s : Circuit c k) (assignment : List (Scalar c)) (registry : Registry)
    (options : SolverOptions) : Prop :=
  ∀ functions start i failures st g, s.Starts assignment registry options functions start →
    s.Visiting functions options.force start i failures st → s.gates[i]? = some g →
      ¬g.LeavesFree (s.context functions) st

section Admissible

variable {s : Circuit c k} {assignment : List (Scalar c)} {registry : Registry}
  {options : SolverOptions} {functions : HintTable} {start : SolveState c}
  {values : Array (Scalar c)} {calls : List HintCall}

/-! ## Admissible assignments agree with the solution -/

theorem Admissible.agrees_start (h : s.Admissible assignment (registry.functions ++
    options.hintFunctions) values)
    (hstarts : s.Starts assignment registry options functions start) :
    (valuation values).Agrees start.solution := by
  intro w x hx
  rw [hstarts.get?_eq] at hx
  obtain ⟨hlt, hx⟩ := List.getElem?_eq_some_iff.1 hx
  have hvalue := List.prefix_iff_getElem?.1 h.inputs w.index hlt
  rw [Array.getElem?_toList] at hvalue
  rw [valuation, hvalue, hx]
  rfl

theorem Admissible.denote_eq_zero {fns : List HintFunction}
    (h : s.Admissible assignment fns values) {i : Nat} {g : Gate k}
    (hgate : s.gates[i]? = some g) : g.denote s.table (valuation values) = 0 :=
  (residual_eq_ok_iff.1 (h.gates g (Array.mem_toList_iff.2 (Array.mem_of_getElem? hgate)))).2

/-- The inputs of a call that can be evaluated have the integers of their values. -/
theorem val_of_mapM_evalCombination {table : CoefficientTable c} {inputs : List LinearCombination}
    {xs : List (Scalar c)} (h : inputs.mapM (evalCombination table values) = .ok xs) :
    xs.map Scalar.val = inputValues table (valuation values) inputs := by
  rw [mapM_eq_ok_iff] at h
  induction h with
  | nil => rfl
  | @cons lc x rest xs hx _ ih =>
    obtain ⟨-, hvalue⟩ := evalCombination_eq_ok_iff.1 hx
    rw [List.map_cons, ih, ← hvalue]
    rfl

/-- A call that runs solves its wires as every admissible assignment has them. -/
theorem Admissible.agrees_ran (h : s.Admissible assignment (registry.functions ++
    options.hintFunctions) values) (hstarts : s.Starts assignment registry options functions start)
    (hrep : s.hints.Represents calls) {st st' : SolveState c}
    (hran : HintRan (s.context functions) st st') (hv : (valuation values).Agrees st.solution) :
    (valuation values).Agrees st'.solution := by
  obtain ⟨w, call, fn, hasked, hends⟩ := hran
  obtain ⟨hmem, hw⟩ := hrep.mem_entries_iff.1 hasked.produces
  obtain ⟨hfind, -, hshape⟩ := HintTable.handler_eq_ok_iff.1 hasked.handler
  obtain ⟨fn', hin, hid, xs', outs', hinputs, hcall', hwires⟩ :=
    h.hints call (hrep.mem_calls_iff.2 ⟨hmem, List.ne_nil_of_mem hw⟩)
  -- an identity has one function in the table, so both runs are of the same one
  have hsame : fn' = fn := by
    have hfind' := hstarts.find?_eq_some_iff.2 ⟨hin, hid⟩
    rw [show functions.find? call.id = some fn from hfind] at hfind'
    exact (Option.some.inj hfind').symm
  cases hends with
  | @ran xs outs solution hread hcall hset =>
    have hxs : xs'.map Scalar.val = xs := by
      rw [val_of_mapM_evalCombination hinputs]
      exact ((Solution.readInputs_eq_ok_iff hv).1 hread).2
    have houts : outs' = outs := by
      rw [hsame, hxs, ← hshape] at hcall'
      change fn.call c xs (fn.zeros call) = (outs', .ok ()) at hcall'
      rw [hcall] at hcall'
      exact (Prod.mk.inj hcall').1.symm
    rw [houts, mapM_eq_ok_iff, List.forall₂_iff_zip] at hwires
    intro u x hx
    change solution.get? u = some x at hx
    by_cases hu : u ∈ call.wires
    · -- the wire holds what the function makes of the inputs, here and in the assignment
      rw [← map_fst_zip_map (c := c) (hasked.length_outputs hcall)] at hu
      obtain ⟨⟨u', y⟩, hzip, rfl⟩ := List.mem_map.1 hu
      have hy := (Solution.get?_of_setAll hset hzip).2
      rw [hx] at hy
      cases hy
      exact (wireValue_eq_ok_iff.1 (hwires.2 hzip)).2
    · rw [wires_of_not_mem hset hu] at hx
      exact hv u x hx

/-- No visit separates an admissible assignment from the solution. -/
theorem Admissible.agrees_visiting (h : s.Admissible assignment (registry.functions ++
    options.hintFunctions) values) (hstarts : s.Starts assignment registry options functions start)
    (hrep : s.hints.Represents calls) (hpinned : s.Pinned assignment registry options) {i : Nat}
    {failures : Failures} {st : SolveState c}
    (hvisiting : s.Visiting functions options.force start i failures st) :
    (valuation values).Agrees st.solution := by
  induction hvisiting with
  | start => exact h.agrees_start hstarts
  | @next i g failures failures' st st' hvisiting hgate hexec ih =>
    -- the visit did not stop, so that it forces what an admissible assignment has there
    obtain ⟨outcome, mid, hsolve, hsame, hnot, -⟩ := visitGate_eq_ok hexec
    have hvisited := visited_of_solve (hrep.context functions) hsolve
    have hfree := hpinned functions start i failures st g hstarts hvisiting hgate
    rw [hsame]
    exact (hvisited.forced hnot hfree (fun _ _ hran hv => h.agrees_ran hstarts hrep hran hv) ih
      (h.denote_eq_zero hgate)).2

/-- An admissible assignment is the completed solution of a run that solves every wire. -/
theorem Admissible.eq_complete (h : s.Admissible assignment (registry.functions ++
    options.hintFunctions) values) (hstarts : s.Starts assignment registry options functions start)
    (hrep : s.hints.Represents calls) (hpinned : s.Pinned assignment registry options)
    {failures : Failures} {st : SolveState c}
    (hexec : exec (s.run functions options.force) start = (.ok failures, st))
    (hvalid : st.solution.isValid = true) : values = st.solution.complete := by
  obtain ⟨mid, hvisiting, hruns, -⟩ := run_eq_ok hrep hexec
  have hagrees : (valuation values).Agrees st.solution := by
    have hmid := h.agrees_visiting hstarts hrep hpinned hvisiting
    exact preserved (I := fun st => (valuation values).Agrees st.solution)
      (fun _ _ hran hv => h.agrees_ran hstarts hrep hran hv) hruns hmid
  obtain ⟨hext, -⟩ := judged_of_run hrep hexec
  -- every wire is solved, so agreeing with the solution leaves no choice
  apply Array.ext
  · rw [h.size_eq, hstarts.size_complete hext]
  · intro i hi hi'
    have hlt : i < s.nWires := by
      rw [← h.size_eq]
      exact hi
    have hsome := (hstarts.isValid_iff hrep hexec).1 hvalid ⟨i⟩ hlt
    obtain ⟨x, hx⟩ := Option.isSome_iff_exists.1 hsome
    have hcomplete := Solution.getElem?_complete hx
    rw [Array.getElem?_eq_getElem hi'] at hcomplete
    have hvalue := hagrees ⟨i⟩ x hx
    unfold valuation at hvalue
    rw [Array.getElem?_eq_getElem hi] at hvalue
    exact hvalue.trans (Option.some.inj hcomplete).symm

/-! ## The witness is admissible -/

/-- If an unforced run ends with every wire solved, its solution is admissible. -/
theorem Starts.admissible_complete (hstarts : s.Starts assignment registry options functions start)
    (hrep : s.hints.Represents calls) (hs : s.WellFormed) (hforce : options.force = false)
    {failures : Failures} {st : SolveState c}
    (hexec : exec (s.run functions options.force) start = (.ok failures, st))
    (hvalid : st.solution.isValid = true) :
    s.Admissible assignment (registry.functions ++ options.hintFunctions)
      st.solution.complete := by
  obtain ⟨hext, hjudged⟩ := judged_of_run hrep hexec
  -- without force a visit notes no failure
  have hnone : failures = .none := by
    obtain ⟨mid, hvisiting, -⟩ := run_eq_ok hrep hexec
    rw [hforce] at hvisiting
    exact hvisiting.failures_eq_none
  rw [hnone] at hjudged
  constructor
  · exact hstarts.size_complete hext
  · exact hstarts.prefix_complete hext
  · intro g hg
    -- a gate was judged when it was visited, and it was not found to fail
    obtain ⟨j, hj⟩ := List.mem_iff_getElem?.1 hg
    rw [Array.getElem?_toList] at hj
    obtain ⟨hlt, -⟩ := Array.getElem?_eq_some_iff.1 hj
    obtain ⟨hbounds, -⟩ := hjudged.computed j g hlt hj
    rw [← st.solution.size_complete] at hbounds
    exact residual_eq_ok_iff.2
      ⟨hbounds, hjudged.denote_eq_zero st.solution.agrees_complete hlt hj⟩
  · intro call hcall
    -- a call ran once, on values that the witness still has
    obtain ⟨hmem, hne⟩ := hrep.mem_calls_iff.1 hcall
    obtain ⟨run, outs, hran⟩ := hstarts.ran hrep hs hexec hvalid hmem hne
    obtain ⟨hin, hid⟩ := hstarts.find?_eq_some_iff.1 hran.function_eq
    obtain ⟨xs, hinputs, hxs, hwires⟩ := hran.evaluated
    refine ⟨run.function, hin, hid, xs, outs, hinputs, ?_, hwires⟩
    rw [← hxs, ← hran.zeros]
    exact hran.call_eq

/-! ## A failing constraint rules out every assignment -/

/-- A run does not stop at an unsatisfied constraint if there is an admissible assignment. -/
theorem Admissible.run_ne_unsatisfied (h : s.Admissible assignment (registry.functions ++
    options.hintFunctions) values) (hstarts : s.Starts assignment registry options functions start)
    (hrep : s.hints.Represents calls) (hpinned : s.Pinned assignment registry options)
    {st : SolveState c} {i : Nat} {detail : String} :
    exec (s.run functions options.force) start ≠
      (.error (.error (.unsatisfiedConstraint i detail)), st) := by
  intro hexec
  rcases run_eq_error hexec with ⟨j, g, failures, mid, hvisiting, hgate, hvisit⟩ |
    ⟨failures, mid, -, ⟨f, -, habs, -⟩ | ⟨pending, -, hcalls⟩⟩
  · rcases visitGate_eq_error hvisit with hsolve | ⟨outcome, hsolve, hstop⟩
    · exact raises_gate (raises_resolve _) g mid _ (congrArg Prod.fst hsolve)
    · rcases hstop with ⟨-, habs⟩ | ⟨hout, -⟩
      · cases habs
      · -- the gate holds under the assignment, so its visit finds that it holds
        have hvisited := visited_of_solve (hrep.context functions) hsolve
        have hfree := hpinned functions start j failures mid g hstarts hvisiting hgate
        have hagrees := h.agrees_visiting hstarts hrep hpinned hvisiting
        rw [hout] at hvisited
        obtain ⟨habs, -⟩ := hvisited.forced nofun hfree
          (fun _ _ hran hv => h.agrees_ran hstarts hrep hran hv) hagrees
          (h.denote_eq_zero hgate)
        cases habs
  · cases habs
  · exact raises_runPending _ pending mid _ (congrArg Prod.fst hcalls)

end Admissible

end Circuit

open Circuit in
/-- In an unforced solve in which no gate leaves its unknown free, the values of a
    witness are the only admissible assignment, and if a constraint fails there is none. -/
theorem solve_unique {calls : List HintCall} {s : Circuit c k} (hbuilt : Built calls s)
    (hvalid : s.validate = .ok ()) {assignment : List (Scalar c)} {registry : Registry}
    {options : SolverOptions} (hforce : options.force = false)
    (hpinned : s.Pinned assignment registry options) :
    (∀ w, (s.solve assignment registry options).result = .ok w →
        ∀ values, s.Admissible assignment (registry.functions ++ options.hintFunctions) values ↔
          values = w.values) ∧
      ∀ i detail, (s.solve assignment registry options).result =
          .error (.error (.unsatisfiedConstraint i detail)) →
        ∀ values,
          ¬s.Admissible assignment (registry.functions ++ options.hintFunctions) values := by
  have hrep := hbuilt.represents
  have hs := validate_eq_ok_iff.1 hvalid
  constructor
  · intro w h values
    obtain ⟨functions, start, failures, st, hstarts, hexec, hall, rfl, -⟩ := solve_eq_ok h
    constructor
    · intro hadmissible
      exact hadmissible.eq_complete hstarts hrep hpinned hexec hall
    · intro hvalues
      rw [hvalues]
      exact hstarts.admissible_complete hrep hs hforce hexec hall
  · intro i detail h values hadmissible
    rcases solve_eq_error h with hrefuses | ⟨functions, start, st, hstarts, hexec⟩
    · -- a refusal for the functions is of another kind
      cases hrefuses with
      | functions hfunctions =>
        obtain ⟨id, name, habs⟩ := HintTable.eq_duplicateHint_of_ofList hfunctions
        cases habs
    · exact hadmissible.run_ne_unsatisfied hstarts hrep hpinned hexec

namespace Circuit

/-- The first gate of the sample solves its output, and the factor next to the unknown of
    the second is one. -/
theorem pinned_sample (assignment : List (Scalar .bn254)) (registry : Registry)
    (options : SolverOptions) : sample.Pinned assignment registry options := by
  intro functions start i failures st g hstarts hvisiting hgate hfree
  have hrep := built_sample.represents
  have hmem := Array.mem_of_getElem? hgate
  have hext := extends_of_actions (hvisiting.actions hrep)
  have hone := hext.keeps .one 1 (hstarts.get?_eq .one)
  cases g with
  | rankOne g =>
    obtain ⟨p, mid, hseek, hleaves⟩ := hfree
    have hruns := (follows_seekUnknown (sample.context functions) _ _ none g.places).ok hseek
    have hone' := (extends_of_runs hruns).keeps _ _ hone
    have hsought := sought_rankOne (hrep.context functions) hseek
    cases hsought with
    | one _ horigin _ _ _ hexposed =>
      have hplace := horigin.resolve_right (Option.some_ne_none _).symm
      have hp := List.mem_of_getElem? (RankOne.mem_places_iff.1 hplace)
      -- the wire 3 is produced by the call
      have hproduced : p.term.wire ≠ ⟨3⟩ := by
        intro hwire
        have habs := hexposed.unproduced
        rw [hwire] at habs
        cases habs
      have hunsolved : p.term.wire ≠ .one := by
        intro hwire
        have habs := hexposed.isOpen.unsolved
        rw [hwire, hone'] at habs
        cases habs
      simp only [sample, List.mem_toArray, List.mem_cons, List.not_mem_nil, or_false,
        Gate.rankOne.injEq] at hmem
      rcases hmem with rfl | rfl
      · cases hleaves with
        | l hplace =>
          rw [hplace] at hp
          exact hproduced (by rw [List.mem_singleton.1 hp])
        | r hplace =>
          rw [hplace] at hp
          exact hproduced (by rw [List.mem_singleton.1 hp])
      · cases hleaves with
        | l _ hother =>
          -- the other factor is the one wire
          have hagrees := mid.solution.agrees_complete
          have hzero := Solution.denoteSum_of_sumTerms hother hagrees
          rw [denoteSum_cons, denoteSum_nil, add_zero] at hzero
          change sample.table.coefficient .one * valuation mid.solution.complete .one = 0 at hzero
          rw [CoefficientTable.coefficient_one, hagrees .one 1 hone', one_mul] at hzero
          exact one_ne_zero hzero
        | r hplace =>
          rw [hplace] at hp
          exact hunsolved (by rw [List.mem_singleton.1 hp]; rfl)
end Circuit

/-- The one admissible assignment for `(2 + 1)² = 9`, and none for `(2 + 1)² = 8`. -/
theorem solve_unique_sample :
    (∀ values, Circuit.sample.Admissible [9, 2] [.successor] values ↔
        values = #[1, 9, 2, 3, 9]) ∧
      ∀ values, ¬Circuit.sample.Admissible [8, 2] [.successor] values := by
  have hforce : SolverOptions.standard.withoutOutput.force = false := rfl
  have hunique := fun assignment =>
    solve_unique Circuit.built_sample Circuit.validate_sample hforce
      (Circuit.pinned_sample assignment .sample SolverOptions.standard.withoutOutput)
  constructor
  · obtain ⟨w, hw, hvalues⟩ := Circuit.solve_sample
    rw [← hvalues]
    exact (hunique [9, 2]).1 w hw
  · obtain ⟨detail, herror⟩ := Circuit.solve_sample_refuted
    exact (hunique [8, 2]).2 1 detail herror

end CircuitWitness
