import CircuitWitness.Proofs.Solver.Solve

/-! # Which calls have run

    At any time of a solve every accepted call either waits, with all its wires
    unsolved and no run of its function in the trace, or has run exactly once,
    and its wires hold what the function left.  The inputs were read in the
    middle of the solve, but they have the same values under every valuation
    that agrees with a later solution.
-/

namespace CircuitWitness

open Solving Relation

variable {c : Curve} {k : Kind}

/-- The runs of the functions of a call, in the order of the trace. -/
def runsOf (call : HintCall) (trace : Array Event) : List Invocation :=
  (invocations trace).filter fun run => run.call = call

/-- The function of the call has not run, and no wire of the call is solved. -/
structure Waits (call : HintCall) (st : SolveState c) : Prop where
  notRun : runsOf call st.trace = []
  unsolved : ∀ w ∈ call.wires, st.solution.get? w = none

/-- The function of the call has run once, on zeros and on the values of the inputs,
    and the wires of the call hold the outputs `outs`. -/
structure RanAs (ctx : Context c) (call : HintCall) (run : Invocation) (outs : List Nat)
    (st : SolveState c) : Prop where
  once : runsOf call st.trace = [run]
  function_eq : ctx.functions.find? call.id = some run.function
  readable : ∀ lc ∈ call.inputs, st.solution.ReadableSum ctx.table lc
  inputs_eq : ∀ v : Valuation c, v.Agrees st.solution →
    inputValues ctx.table v call.inputs = run.inputs
  zeros : run.outputs = List.replicate call.wires.length 0
  call_eq : run.function.call c run.inputs run.outputs = (outs, .ok ())
  length_eq : outs.length = call.wires.length
  solved : ∀ p ∈ call.wires.zip (outs.map Scalar.ofNat), st.solution.get? p.1 = some p.2

/-- Every call waits or has run once. -/
def Ledger (ctx : Context c) (calls : List HintCall) (st : SolveState c) : Prop :=
  ∀ call ∈ calls, Waits call st ∨ ∃ run outs, RanAs ctx call run outs st

/-! ## One call -/

section Frame

variable {ctx : Context c} {call : HintCall} {st st' : SolveState c}

/-- A call that waits goes on waiting where its wires and its runs stay as they are. -/
theorem Waits.of_same (h : Waits call st) (htrace : runsOf call st'.trace = runsOf call st.trace)
    (hwires : ∀ w ∈ call.wires, st'.solution.get? w = st.solution.get? w) : Waits call st' := by
  refine ⟨htrace.trans h.notRun, ?_⟩
  intro w hw
  rw [hwires w hw]
  exact h.unsolved w hw

/-- A call that has run stays as it is while the solution is extended. -/
theorem RanAs.of_extends {run : Invocation} {outs : List Nat} (h : RanAs ctx call run outs st)
    (htrace : runsOf call st'.trace = runsOf call st.trace)
    (hext : st.solution.Extends st'.solution) : RanAs ctx call run outs st' where
  once := htrace.trans h.once
  function_eq := h.function_eq
  readable := fun lc hlc =>
    ⟨(h.readable lc hlc).1, fun t ht => ((h.readable lc hlc).2 t ht).of_extends hext⟩
  inputs_eq := fun v hv => h.inputs_eq v (hv.of_extends hext)
  zeros := h.zeros
  call_eq := h.call_eq
  length_eq := h.length_eq
  solved := fun p hp => hext.keeps _ _ (h.solved p hp)

/-- The wires of a call that has run are solved. -/
theorem RanAs.isSome {run : Invocation} {outs : List Nat} (h : RanAs ctx call run outs st)
    {w : WireId} (hw : w ∈ call.wires) : (st.solution.get? w).isSome := by
  rw [← map_fst_zip_map (c := c) h.length_eq] at hw
  obtain ⟨p, hp, rfl⟩ := List.mem_map.1 hw
  rw [h.solved p hp]
  rfl

/-- On the completed solution the inputs of a call that has run evaluate to what the
    function was run on, and the wires hold what it left. -/
theorem RanAs.evaluated {run : Invocation} {outs : List Nat} (h : RanAs ctx call run outs st) :
    ∃ xs, call.inputs.mapM (evalCombination ctx.table st.solution.complete) = .ok xs ∧
      run.inputs = xs.map Scalar.val ∧
      call.wires.mapM (wireValue st.solution.complete) = .ok (outs.map Scalar.ofNat) := by
  -- the wires of the inputs are solved, so that their sums are those of the final values
  have hinputs : ∀ lc ∈ call.inputs, evalCombination ctx.table st.solution.complete lc =
      .ok (denoteSum ctx.table (valuation st.solution.complete) lc.terms) := by
    intro lc hlc
    refine evalCombination_eq_ok_iff.2 ⟨?_, rfl⟩
    intro t ht
    rw [Solution.size_complete]
    exact ((h.readable lc hlc).2 t ht).inBounds
  refine ⟨_, mapM_eq_ok_map hinputs, ?_, ?_⟩
  · rw [← h.inputs_eq _ st.solution.agrees_complete, inputValues, List.map_map]
    rfl
  · rw [mapM_eq_ok_iff, List.forall₂_iff_zip]
    refine ⟨by rw [List.length_map, h.length_eq], ?_⟩
    intro w x hmem
    unfold wireValue
    rw [Solution.getElem?_complete (h.solved (w, x) hmem)]

end Frame

theorem runsOf_push_of_none {call : HintCall} {trace : Array Event} {e : Event}
    (h : e.invocation? = none) : runsOf call (trace.push e) = runsOf call trace := by
  rw [runsOf, invocations_push_of_none h, runsOf]

theorem runsOf_afterRefusal (call : HintCall) (st : SolveState c) (n : Nat) (xs : List Nat) :
    runsOf call (st.afterRefusal n xs).trace = runsOf call st.trace := by
  rw [runsOf, invocations_afterRefusal, runsOf]

theorem runsOf_afterRun (call : HintCall) (st : SolveState c) (run : Invocation)
    (outs : List Nat) (solution : Solution c) :
    runsOf call (st.afterRun run outs solution).trace =
      if run.call = call then runsOf call st.trace ++ [run] else runsOf call st.trace := by
  unfold runsOf
  rw [invocations_afterRun, List.filter_append]
  split
  · rename_i heq
    simp [heq]
  · rename_i hne
    simp [hne]

/-! ## What a call does to the ledger -/

section Step

variable {ctx : Context c} {calls : List HintCall} {st st' : SolveState c}

/-- A call that is made was waiting. -/
theorem Ledger.waits (h : Ledger ctx calls st) (hrep : ctx.hints.Represents calls) {w : WireId}
    {call : HintCall} {fn : HintFunction} (hasked : Asked ctx st w call fn) : Waits call st := by
  obtain ⟨hmem, hw⟩ := hrep.mem_entries_iff.1 hasked.produces
  rcases h call hmem with hwaits | ⟨run, outs, hran⟩
  · exact hwaits
  · have hsome := hran.isSome hw
    rw [hasked.unsolved] at hsome
    cases hsome

theorem Ledger.ran (h : Ledger ctx calls st) (hrep : ctx.hints.Represents calls)
    (hran : HintRan ctx st st') : Ledger ctx calls st' := by
  have hext := hran.extends
  obtain ⟨w, call₀, fn, hasked, hends⟩ := hran
  obtain ⟨hmem₀, hw⟩ := hrep.mem_entries_iff.1 hasked.produces
  obtain ⟨hfind, -, hshape⟩ := HintTable.handler_eq_ok_iff.1 hasked.handler
  have hwaits := h.waits hrep hasked
  cases hends with
  | @ran xs outs solution hread hcall hset =>
    have hlen := hasked.length_outputs hcall
    intro call hmem
    by_cases hsame : call = call₀
    · -- the call that waited has run, and its record is the event just pushed
      subst hsame
      refine .inr ⟨⟨fn, w, call, xs, fn.zeros call⟩, outs, ?_⟩
      obtain ⟨hreadable, -⟩ :=
        (Solution.readInputs_eq_ok_iff st.solution.agrees_complete).1 hread
      constructor
      · rw [runsOf_afterRun, if_pos rfl, hwaits.notRun]
        rfl
      · exact hfind
      · intro lc hlc
        exact ⟨(hreadable lc hlc).1, fun t ht => ((hreadable lc hlc).2 t ht).of_extends hext⟩
      · intro v hv
        exact ((Solution.readInputs_eq_ok_iff (hv.of_extends hext)).1 hread).2
      · show fn.zeros call = _
        rw [HintFunction.zeros, hshape]
      · exact hcall
      · exact hlen
      · intro p hp
        exact (Solution.get?_of_setAll hset hp).2
    · -- the other calls have other wires
      have htrace : runsOf call (st.afterRun ⟨fn, w, call₀, xs, fn.zeros call₀⟩ outs
          solution).trace = runsOf call st.trace := by
        rw [runsOf_afterRun, if_neg fun heq => hsame heq.symm]
      rcases h call hmem with hwaits' | ⟨run, outs', hran'⟩
      · refine .inl (hwaits'.of_same htrace ?_)
        intro u hu
        exact wires_of_not_mem hset fun hu' => hsame (hrep.eq_of_mem_wires hmem hu hmem₀ hu')
      · exact .inr ⟨run, outs', hran'.of_extends htrace hext⟩

theorem Ledger.action (h : Ledger ctx calls st) (hrep : ctx.hints.Represents calls)
    (hact : Action ctx st st') : Ledger ctx calls st' := by
  have hext := hact.extends
  cases hact with
  | ran hran => exact h.ran hrep hran
  | @settled w x solution hfree hset =>
    -- a gate solves a wire that no call produces, so the ledger does not see it
    intro call hmem
    rcases h call hmem with hwaits | ⟨run, outs, hran⟩
    · refine .inl (hwaits.of_same rfl ?_)
      intro u hu
      have hne : u ≠ w := fun heq => hrep.producer?_eq_none_iff.1 hfree call hmem (heq ▸ hu)
      show solution.get? u = st.solution.get? u
      rw [Solution.get?_of_set hset, if_neg hne]
    · exact .inr ⟨run, outs, hran.of_extends rfl hext⟩
  | reported hnone =>
    intro call hmem
    rcases h call hmem with hwaits | ⟨run, outs, hran⟩
    · exact .inl (hwaits.of_same (runsOf_push_of_none hnone) fun _ _ => rfl)
    · exact .inr ⟨run, outs, hran.of_extends (runsOf_push_of_none hnone) hext⟩

theorem Ledger.actions (h : Ledger ctx calls st) (hrep : ctx.hints.Represents calls)
    (hacts : ReflTransGen (Action ctx) st st') : Ledger ctx calls st' :=
  preserved (I := Ledger ctx calls) (fun _ _ hact h => h.action hrep hact) hacts h

/-! ## No call runs twice -/

theorem Ledger.at_most_once (h : Ledger ctx calls st) {call : HintCall} (hmem : call ∈ calls) :
    (runsOf call st.trace).length ≤ 1 := by
  rcases h call hmem with hwaits | ⟨run, outs, hran⟩
  · rw [hwaits.notRun]
    exact Nat.zero_le 1
  · rw [hran.once]
    exact Nat.le_refl 1

/-- A call that stops the solve was waiting, so it has run at most once. -/
theorem Ledger.at_most_once_stopped (h : Ledger ctx calls st)
    (hrep : ctx.hints.Represents calls) (hstop : HintStopped ctx st st') {call : HintCall}
    (hmem : call ∈ calls) : (runsOf call st'.trace).length ≤ 1 := by
  have hbefore := h.at_most_once hmem
  -- the call that stops adds one run at most, and it was waiting
  obtain ⟨w, call₀, fn, stop, hasked, hends⟩ := hstop
  have hwaits := h.waits hrep hasked
  have hafter : ∀ (xs outs : List Nat) (solution : Solution c),
      (runsOf call (st.afterRun ⟨fn, w, call₀, xs, fn.zeros call₀⟩ outs
        solution).trace).length ≤ 1 := by
    intro xs outs solution
    rw [runsOf_afterRun]
    split
    · rename_i heq
      rw [← heq, hwaits.notRun]
      exact Nat.le_refl 1
    · exact hbefore
  cases hends with
  | refused hread =>
    rw [runsOf_afterRefusal]
    exact hbefore
  | failed hread hcall => exact hafter _ _ _
  | broke hread hcall hset => exact hafter _ _ _

end Step

/-! ## The ledger of a solve -/

namespace Circuit

section Solve

variable {s : Circuit c k} {assignment : List (Scalar c)} {registry : Registry}
  {options : SolverOptions} {functions : HintTable} {start : SolveState c}
  {calls : List HintCall}

theorem Starts.ledger (h : s.Starts assignment registry options functions start)
    (hrep : s.hints.Represents calls) (hs : s.WellFormed) :
    Ledger (s.context functions) calls start := by
  intro call hmem
  refine .inl ⟨?_, ?_⟩
  · rw [runsOf, h.invocations_eq]
    rfl
  · intro w hw
    exact (h.get?_output hrep hs hmem hw).2

/-- When a run ends with every wire solved, every call with a wire has run. -/
theorem Starts.ran (h : s.Starts assignment registry options functions start)
    (hrep : s.hints.Represents calls) (hs : s.WellFormed) {failures : Failures}
    {st : SolveState c}
    (hexec : exec (s.run functions options.force) start = (.ok failures, st))
    (hvalid : st.solution.isValid = true) {call : HintCall} (hmem : call ∈ calls)
    (hne : call.wires ≠ []) : ∃ run outs, RanAs (s.context functions) call run outs st := by
  have hacts := actions_of_run hrep hexec
  rcases (h.ledger hrep hs).actions hrep hacts call hmem with hwaits | hran
  · -- a call that waits has an unsolved wire
    obtain ⟨u, hu⟩ := List.exists_mem_of_ne_nil _ hne
    have hlt := (h.get?_output hrep hs hmem hu).1
    have hsome := (h.isValid_iff hrep hexec).1 hvalid u hlt
    rw [hwaits.unsolved u hu] at hsome
    cases hsome
  · exact hran

/-- The functions of a solve are the registered ones and those of the options, no two
    with one identifier. -/
theorem find?_hintTable_eq_some_iff (h : hintTable registry options = .ok functions) {id : HintId}
    {fn : HintFunction} :
    functions.find? id = some fn ↔
      fn ∈ registry.functions ++ options.hintFunctions ∧ fn.id = id := by
  obtain ⟨hfunctions, hnodup⟩ := HintTable.of_ofList h
  rw [HintTable.find?_eq_some_iff hnodup, hfunctions, List.mem_append, List.mem_append,
    Registry.snapshot, Order.mem_sort]

theorem Starts.find?_eq_some_iff (h : s.Starts assignment registry options functions start)
    {id : HintId} {fn : HintFunction} :
    functions.find? id = some fn ↔
      fn ∈ registry.functions ++ options.hintFunctions ∧ fn.id = id :=
  find?_hintTable_eq_some_iff h.functions_eq

end Solve

end Circuit

end CircuitWitness
