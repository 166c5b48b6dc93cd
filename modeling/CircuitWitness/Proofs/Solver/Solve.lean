import CircuitWitness.Proofs.Circuit.WellFormed
import CircuitWitness.Proofs.Solver.Run
import CircuitWitness.Solver.Witness

/-! # A solve from its start to its report

    A solve is refused, or it starts from the state in which just the one wire
    and the inputs are solved (`Circuit.Starts`).  What it reports follows from
    how its run ended (`Circuit.Reports`).
-/

namespace CircuitWitness

open Solving Relation

variable {c : Curve} {k : Kind}

/-! ## Invocations -/

/-- The runs of hint functions that a trace reports, in order. -/
def invocations (trace : Array Event) : List Invocation :=
  trace.toList.filterMap Event.invocation?

theorem invocations_push_of_none {trace : Array Event} {e : Event} (h : e.invocation? = none) :
    invocations (trace.push e) = invocations trace := by
  simp [invocations, h]

@[simp] theorem invocations_push_called (trace : Array Event) (run : Invocation) :
    invocations (trace.push (.called run)) = invocations trace ++ [run] := by
  simp [invocations, Event.invocation?]

@[simp] theorem invocations_afterRefusal (st : SolveState c) (n : Nat) (xs : List Nat) :
    invocations (st.afterRefusal n xs).trace = invocations st.trace :=
  invocations_push_of_none rfl

@[simp] theorem invocations_afterRun (st : SolveState c) (run : Invocation) (outs : List Nat)
    (solution : Solution c) :
    invocations (st.afterRun run outs solution).trace = invocations st.trace ++ [run] := by
  unfold SolveState.afterRun
  rw [invocations_push_called, invocations_push_of_none rfl]

/-- How a request ends that runs the function on the inputs and the outputs of `run`, and the
    solution that it leaves. -/
def Invocation.outcome (s : Solution c) (run : Invocation) :
    Except (Stop SolverError) Unit × Solution c :=
  match run.function.call c run.inputs run.outputs with
  | (_, .error e) => (.error (.error (.hintFailed run.function.name e)), s)
  | (outs, .ok ()) =>
    let (r, solution) := s.setAll (run.call.wires.zip (outs.map Scalar.ofNat))
    (r.mapError .fault, solution)

/-- A call runs its function on the inputs that it has read, unless an input stops it. -/
theorem CallEnds.invocations {ctx : Context c} {w : WireId} {call : HintCall} {h : HintFunction}
    {st st' : SolveState c} {r : Except (Stop SolverError) Unit}
    (hends : CallEnds ctx w call h st r st') :
    (∃ run : Invocation, run = ⟨h, w, call, run.inputs, h.zeros call⟩ ∧
        st.solution.readInputs ctx.table call.id call.inputs = (.ok (), run.inputs) ∧
        invocations st'.trace = invocations st.trace ++ [run] ∧
        (r, st'.solution) = run.outcome st.solution) ∨
      ((∃ stop, r = .error stop) ∧ invocations st'.trace = invocations st.trace) := by
  -- a call runs its function once its inputs are read, whatever the function then does
  cases hends with
  | refused hread => exact .inr ⟨⟨_, rfl⟩, invocations_afterRefusal ..⟩
  | failed hread hcall =>
    refine .inl ⟨_, rfl, hread, invocations_afterRun .., ?_⟩
    simp only [Invocation.outcome, hcall, SolveState.solution_afterRun]
  | broke hread hcall hset =>
    refine .inl ⟨_, rfl, hread, invocations_afterRun .., ?_⟩
    simp only [Invocation.outcome, hcall, hset, SolveState.solution_afterRun]
    rfl
  | ran hread hcall hset =>
    refine .inl ⟨_, rfl, hread, invocations_afterRun .., ?_⟩
    simp only [Invocation.outcome, hcall, hset, SolveState.solution_afterRun]
    rfl

namespace Circuit

/-! ## The start -/

section Seeds

variable {assignment : List (Scalar c)}

theorem mem_seeds_iff {w : WireId} {x : Scalar c} :
    (w, x) ∈ seeds assignment ↔ (1 :: assignment)[w.index]? = some x := by
  unfold seeds
  rw [List.mem_cons, List.mem_map]
  obtain ⟨i⟩ := w
  -- the one wire is at the head, and an input one wire further on than in the assignment
  cases i with
  | zero => simp [WireId.one, eq_comm]
  | succ i =>
    rw [List.getElem?_cons_succ]
    constructor
    · intro h
      rcases h with habs | ⟨⟨y, j⟩, hmem, heq⟩
      · cases habs
      · cases heq
        exact List.mem_zipIdx_iff_getElem?.1 hmem
    · intro h
      exact .inr ⟨(x, i), List.mem_zipIdx_iff_getElem?.2 h, rfl⟩

theorem map_fst_seeds :
    (seeds assignment).map Prod.fst = (List.range (assignment.length + 1)).map WireId.mk := by
  have hinputs : (seeds assignment).map Prod.fst =
      WireId.one :: (assignment.zipIdx.map Prod.snd).map fun i => ⟨i + 1⟩ := by
    rw [seeds, List.map_cons, List.map_map, List.map_map]
    rfl
  rw [hinputs, List.zipIdx_map_snd, ← List.range_eq_range', List.range_succ_eq_map,
    List.map_cons, List.map_map]
  rfl

theorem nodup_seeds : ((seeds assignment).map Prod.fst).Nodup := by
  rw [map_fst_seeds]
  apply List.Nodup.map
  · intro i j h
    cases h
    rfl
  · exact List.nodup_range

theorem mem_map_fst_seeds {w : WireId} :
    w ∈ (seeds assignment).map Prod.fst ↔ w.index ≤ assignment.length := by
  rw [map_fst_seeds, List.mem_map]
  constructor
  · intro ⟨i, hi, hw⟩
    subst hw
    rw [List.mem_range] at hi
    exact Nat.le_of_lt_succ hi
  · intro h
    exact ⟨w.index, List.mem_range.2 (Nat.lt_succ_of_le h), rfl⟩

/-- Seeding solves the one wire and the inputs, and no other wire. -/
theorem get?_of_seeds {n : Nat} {solution : Solution c}
    (hseeds : (Solution.unsolved n).setAll (seeds assignment) = (.ok (), solution)) (w : WireId) :
    solution.get? w = (1 :: assignment)[w.index]? := by
  cases hx : (1 :: assignment)[w.index]? with
  | some x => exact (Solution.get?_of_setAll hseeds (mem_seeds_iff.2 hx)).2
  | none =>
    have hout : w ∉ (seeds assignment).map Prod.fst := by
      rw [mem_map_fst_seeds]
      rw [List.getElem?_eq_none_iff, List.length_cons] at hx
      omega
    have hget := Solution.get?_setAll_of_ne (s := Solution.unsolved n) hout
    rw [hseeds, Solution.get?_unsolved] at hget
    exact hget

/-- The one wire and the inputs of a circuit with a public wire can be seeded. -/
theorem exists_seeded {s : Circuit c k} (hpublic : 0 < s.layout.nPublic)
    (hlen : assignment.length = s.layout.nInputs) :
    ∃ solution, (Solution.unsolved s.nWires).setAll (seeds assignment) = (.ok (), solution) := by
  unfold Layout.nInputs at hlen
  refine Solution.exists_setAll nodup_seeds ?_
  intro w hw
  rw [mem_map_fst_seeds] at hw
  refine ⟨?_, Solution.get?_unsolved _ _⟩
  rw [Solution.nWires_unsolved, nWires, Layout.nWires]
  omega

end Seeds

/-- The state that the run of a solve starts from: the one wire and the inputs are
    solved. -/
structure Starts (s : Circuit c k) (assignment : List (Scalar c)) (registry : Registry)
    (options : SolverOptions) (functions : HintTable) (start : SolveState c) : Prop where
  length_eq : assignment.length = s.layout.nInputs
  functions_eq : hintTable registry options = .ok functions
  seeded : (Solution.unsolved s.nWires).setAll (seeds assignment) = (.ok (), start.solution)
  pool_eq : start.pool = registry.pool
  trace_eq : start.trace = #[.started k s.nWires s.nConstraints]

namespace Starts

variable {s : Circuit c k} {assignment : List (Scalar c)} {registry : Registry}
  {options : SolverOptions} {functions : HintTable} {start : SolveState c}

theorem nWires_eq (h : s.Starts assignment registry options functions start) :
    start.solution.nWires = s.nWires := by
  rw [(Solution.extends_of_setAll h.seeded).nWires_eq, Solution.nWires_unsolved]

theorem counted (h : s.Starts assignment registry options functions start) :
    start.solution.Counted :=
  Solution.counted_of_setAll h.seeded (Solution.counted_unsolved _)

/-- The one wire and the inputs have their values. -/
theorem get?_eq (h : s.Starts assignment registry options functions start) (w : WireId) :
    start.solution.get? w = (1 :: assignment)[w.index]? := get?_of_seeds h.seeded w

theorem invocations_eq (h : s.Starts assignment registry options functions start) :
    invocations start.trace = [] := by
  rw [h.trace_eq]
  rfl

/-- The inputs are not internal wires. -/
theorem get?_internal (h : s.Starts assignment registry options functions start)
    (hpublic : 0 < s.layout.nPublic) {w : WireId}
    (hw : s.layout.visibility? w = some .internal) : start.solution.get? w = none := by
  -- the internal wires come after the public and the secret ones, which the seeds fill
  have hinternal : s.layout.nPublic + s.layout.nSecret ≤ w.index := by
    unfold Layout.visibility? at hw
    split at hw
    · cases hw
    · split at hw
      · cases hw
      · omega
  have hlen := h.length_eq
  unfold Layout.nInputs at hlen
  rw [h.get?_eq, List.getElem?_eq_none_iff, List.length_cons]
  omega

/-- The wires of the hint calls are unsolved. -/
theorem get?_output (h : s.Starts assignment registry options functions start)
    {calls : List HintCall} (hrep : s.hints.Represents calls) (hs : s.WellFormed)
    {call : HintCall} (hcall : call ∈ calls) {w : WireId} (hw : w ∈ call.wires) :
    w.index < s.nWires ∧ start.solution.get? w = none := by
  have hfits := hs.calls call (hrep.mem_calls_iff.2 ⟨hcall, List.ne_nil_of_mem hw⟩)
  have hinternal := hfits.2 w hw
  exact ⟨visibility?_lt hinternal, h.get?_internal hs.oneWire hinternal⟩

theorem unbegun (h : s.Starts assignment registry options functions start)
    {calls : List HintCall} (hrep : s.hints.Represents calls) (hs : s.WellFormed) :
    Unbegun calls start.solution := by
  intro call hcall _ _ _
  refine ⟨hrep.nodup_wires hcall, ?_⟩
  intro u hu
  rw [h.nWires_eq]
  exact h.get?_output hrep hs hcall hu

end Starts

/-- Why a solve does not start. -/
inductive Refuses (s : Circuit c k) (assignment : List (Scalar c)) (registry : Registry)
    (options : SolverOptions) : Stop SolverError → Prop where
  | size (h : assignment.length ≠ s.layout.nInputs) :
      Refuses s assignment registry options
        (.error (.witnessSize s.layout.nInputs assignment.length))
  | functions {e : SolverError} (h : hintTable registry options = .error e) :
      Refuses s assignment registry options (.error e)
  | seeds {f : Fault} (hlen : assignment.length = s.layout.nInputs)
      (h : ((Solution.unsolved s.nWires).setAll (seeds assignment)).1 = .error f) :
      Refuses s assignment registry options (.fault f)

/-- A solve is refused or starts. -/
theorem solve_cases (s : Circuit c k) (assignment : List (Scalar c)) (registry : Registry)
    (options : SolverOptions) :
    (∃ stop, s.Refuses assignment registry options stop ∧
        s.solve assignment registry options = ⟨.error stop, registry.pool, options.logger,
          #[.started k s.nWires s.nConstraints]⟩) ∨
      ∃ functions start, s.Starts assignment registry options functions start ∧
        s.solve assignment registry options = s.solveFrom functions options start := by
  simp only [solve_eq]
  -- the checks before a run, in the order in which they are made
  by_cases hlen : assignment.length ≠ s.layout.nInputs
  · exact .inl ⟨_, .size hlen, if_pos hlen⟩
  · rw [if_neg hlen]
    have hlen' := not_not.1 hlen
    cases hfunctions : hintTable registry options with
    | error e => exact .inl ⟨_, .functions hfunctions, rfl⟩
    | ok functions =>
      cases hseeds : (Solution.unsolved s.nWires).setAll (seeds assignment) with
      | mk r solution =>
        cases r with
        | error f => exact .inl ⟨_, .seeds hlen' (congrArg Prod.fst hseeds), rfl⟩
        | ok u => exact .inr ⟨functions, _, ⟨hlen', hfunctions, hseeds, rfl, rfl⟩, rfl⟩

theorem Starts.solve_eq {s : Circuit c k} {assignment : List (Scalar c)} {registry : Registry}
    {options : SolverOptions} {functions : HintTable} {start : SolveState c}
    (h : s.Starts assignment registry options functions start) :
    s.solve assignment registry options = s.solveFrom functions options start := by
  simp only [Circuit.solve_eq]
  rw [if_neg (not_not.2 h.length_eq), h.functions_eq, h.seeded, ← h.pool_eq, ← h.trace_eq]

/-- Two solves of the same inputs are related if they are refused for the same reason, or
    are related from the state on in which the inputs are solved. -/
theorem solve_related {s : Circuit c k} (assignment : List (Scalar c))
    {registry registry' : Registry} {options options' : SolverOptions}
    {R : Report c → Report c → Prop}
    (hrefused : ∀ stop trace, R ⟨.error stop, registry.pool, options.logger, trace⟩
      ⟨.error stop, registry'.pool, options'.logger, trace⟩)
    (htables : (∃ e, hintTable registry options = .error e ∧
        hintTable registry' options' = .error e) ∨
      ∃ t t', hintTable registry options = .ok t ∧ hintTable registry' options' = .ok t' ∧
        ∀ solution trace, solution.nWires = s.nWires →
          R (s.solveFrom t options ⟨solution, registry.pool, trace⟩)
            (s.solveFrom t' options' ⟨solution, registry'.pool, trace⟩)) :
    R (s.solve assignment registry options) (s.solve assignment registry' options') := by
  simp only [solve_eq]
  -- the length is checked before the functions are looked at
  split
  · exact hrefused _ _
  · rcases htables with ⟨e, htable, htable'⟩ | ⟨t, t', htable, htable', hfrom⟩
    · rw [htable, htable']
      exact hrefused _ _
    · rw [htable, htable']
      cases hseeds : (Solution.unsolved s.nWires).setAll (seeds assignment) with
      | mk r solution =>
        have hn := (Solution.extends_of_setAll hseeds).nWires_eq
        rw [Solution.nWires_unsolved] at hn
        cases r with
        | error f => exact hrefused _ _
        | ok u => exact hfrom solution _ hn

/-- A solve starts in one way. -/
theorem Starts.unique {s : Circuit c k} {assignment : List (Scalar c)} {registry : Registry}
    {options : SolverOptions} {functions functions' : HintTable} {start start' : SolveState c}
    (h : s.Starts assignment registry options functions start)
    (h' : s.Starts assignment registry options functions' start') :
    functions = functions' ∧ start = start' := by
  constructor
  · have hfunctions := h.functions_eq
    rw [h'.functions_eq] at hfunctions
    cases hfunctions
    rfl
  · have hsolution := h.seeded
    rw [h'.seeded] at hsolution
    have hpool := h.pool_eq.trans h'.pool_eq.symm
    have htrace := h.trace_eq.trans h'.trace_eq.symm
    -- solution, pool and trace are all there is of a state
    cases start
    cases start'
    cases hsolution
    cases hpool
    cases htrace
    rfl

/-- The solution of a run that ends is valid if it solves every wire. -/
theorem Starts.isValid_iff {s : Circuit c k} {assignment : List (Scalar c)} {registry : Registry}
    {options : SolverOptions} {functions : HintTable} {start st : SolveState c}
    (h : s.Starts assignment registry options functions start) {calls : List HintCall}
    (hrep : s.hints.Represents calls) {force : Bool} {failures : Failures}
    (hexec : exec (s.run functions force) start = (.ok failures, st)) :
    st.solution.isValid = true ↔
      ∀ w : WireId, w.index < s.nWires → (st.solution.get? w).isSome := by
  have hacts := actions_of_run hrep hexec
  have hcounted := preserved (I := fun st => st.solution.Counted)
    (fun _ _ hact => hact.counted) hacts h.counted
  rw [Solution.isValid_iff hcounted, (extends_of_actions hacts).nWires_eq, h.nWires_eq]

/-- No solve is refused because of its seeds, if its circuit has a public wire. -/
theorem not_refuses_seeds {s : Circuit c k} {assignment : List (Scalar c)}
    (hpublic : 0 < s.layout.nPublic) (hlen : assignment.length = s.layout.nInputs) (f : Fault) :
    ((Solution.unsolved s.nWires).setAll (seeds assignment)).1 ≠ .error f := by
  intro habs
  obtain ⟨solution, hok⟩ := exists_seeded hpublic hlen
  rw [hok] at habs
  cases habs

/-! ## The report -/

/-- The event tells how a solve came out. -/
def IsClosing : Event → Prop
  | .logsCut _ => True
  | .solved _ => True
  | _ => False

/-- The result of a solve whose run ended like this in the state `st`. -/
inductive Reports (s : Circuit c k) (options : SolverOptions) (st : SolveState c) :
    Except (Stop SolverError) Failures → Except (Stop SolverError) (Witness c) → Prop where
  | faulted {f : Fault} : Reports s options st (.error (.fault f)) (.error (.fault f))
  /-- The logs cannot be printed. -/
  | unprinted {ended : Except (Stop SolverError) Failures} {f : Fault}
      (hended : ∀ f, ended ≠ .error (.fault f))
      (hprint : (s.printTo st.solution options.logger).1 = .error f) :
      Reports s options st ended (.error (.fault f))
  | failed {e : SolverError} : Reports s options st (.error (.error e)) (.error (.error e))
  | concluded {failures : Failures} :
      Reports s options st (.ok failures) (conclude st.solution failures)

section Report

variable {s : Circuit c k} {functions : HintTable} {options : SolverOptions}
  {start st : SolveState c} {ended : Except (Stop SolverError) Failures}

/-- What is reported after the run, and what is recorded of that. -/
structure Closes (s : Circuit c k) (options : SolverOptions) (st : SolveState c)
    (ended : Except (Stop SolverError) Failures) (r : Report c) : Prop where
  reports : s.Reports options st ended r.result
  pool_eq : r.pool = st.pool
  trace_eq : ∃ events, r.trace.toList = st.trace.toList ++ events ∧ ∀ e ∈ events, IsClosing e

/-- The one walk over what a solve does after its run. -/
theorem closes_solveFrom (hexec : exec (s.run functions options.force) start = (ended, st)) :
    s.Closes options st ended (s.solveFrom functions options start) := by
  change (s.run functions options.force).run.run start = (ended, st) at hexec
  have hsilent : ∃ events, st.trace.toList = st.trace.toList ++ events ∧
      ∀ e ∈ events, IsClosing e := ⟨[], (List.append_nil _).symm, nofun⟩
  have hprinted : ∀ whole, ∃ events, (if whole = true then st.trace
      else st.trace.push (.logsCut Sink.fullText)).toList = st.trace.toList ++ events ∧
        ∀ e ∈ events, IsClosing e := by
    intro whole
    cases whole with
    | true => exact hsilent
    | false => exact ⟨[.logsCut Sink.fullText], Array.toList_push, by simp [IsClosing]⟩
  unfold solveFrom
  rw [hexec]
  cases ended with
  | error stop =>
    cases stop with
    | fault f => exact ⟨.faulted, rfl, hsilent⟩
    | error e =>
      simp only
      cases hprint : s.printTo st.solution options.logger with
      | mk printed logger =>
        cases printed with
        | error f => exact ⟨.unprinted nofun (congrArg Prod.fst hprint), rfl, hsilent⟩
        | ok whole => exact ⟨.failed, rfl, hprinted whole⟩
  | ok failures =>
    simp only
    cases hprint : s.printTo st.solution options.logger with
    | mk printed logger =>
      cases printed with
      | error f => exact ⟨.unprinted nofun (congrArg Prod.fst hprint), rfl, hsilent⟩
      | ok whole =>
        have hconcluded : s.Reports options st (.ok failures) (conclude st.solution failures) :=
          .concluded
        simp only
        cases hresult : conclude st.solution failures with
        | error stop =>
          rw [hresult] at hconcluded
          exact ⟨hconcluded, rfl, hprinted whole⟩
        | ok w =>
          rw [hresult] at hconcluded
          -- the end is recorded after the logs
          obtain ⟨events, htrace, hclosing⟩ := hprinted whole
          refine ⟨hconcluded, rfl, events ++ [.solved failures.count], ?_, ?_⟩
          · rw [Array.toList_push, htrace, List.append_assoc]
          · rw [List.forall_mem_append]
            exact ⟨hclosing, by simp [IsClosing]⟩

theorem reports_of_run
    (hexec : exec (s.run functions options.force) start = (ended, st)) :
    s.Reports options st ended (s.solveFrom functions options start).result :=
  (closes_solveFrom hexec).reports

/-- The report adds nothing to the trace of the run but how the solve came out. -/
theorem filterMap_solveFrom {β : Type} {f : Event → Option β} (hcut : ∀ r, f (.logsCut r) = none)
    (hsolved : ∀ n, f (.solved n) = none)
    (hexec : exec (s.run functions options.force) start = (ended, st)) :
    (s.solveFrom functions options start).trace.toList.filterMap f =
      st.trace.toList.filterMap f := by
  obtain ⟨events, htrace, hclosing⟩ := (closes_solveFrom hexec).trace_eq
  have hnone : events.filterMap f = [] := by
    rw [List.filterMap_eq_nil_iff]
    intro e he
    cases e with
    | logsCut r => exact hcut r
    | solved n => exact hsolved n
    | _ => exact (hclosing _ he).elim
  rw [htrace, List.filterMap_append, hnone, List.append_nil]

/-- The report leaves the pool as the run left it. -/
theorem pool_solveFrom (hexec : exec (s.run functions options.force) start = (ended, st)) :
    (s.solveFrom functions options start).pool = st.pool :=
  (closes_solveFrom hexec).pool_eq

/-- The report keeps the invocations of the run and adds none. -/
theorem invocations_solveFrom
    (hexec : exec (s.run functions options.force) start = (ended, st)) :
    invocations (s.solveFrom functions options start).trace = invocations st.trace :=
  filterMap_solveFrom (fun _ => rfl) (fun _ => rfl) hexec

theorem conclude_eq_ok_iff {solution : Solution c} {failures : Failures} {w : Witness c} :
    conclude solution failures = .ok w ↔ solution.isValid = true ∧
      w = ⟨solution.complete, failures.recorded, failures.count⟩ := by
  unfold conclude
  split
  · rename_i hvalid
    constructor
    · intro h
      cases h
      exact ⟨hvalid, rfl⟩
    · intro ⟨_, hw⟩
      rw [hw]
  · rename_i hvalid
    constructor
    · intro habs
      cases habs
    · intro ⟨habs, _⟩
      exact absurd habs hvalid

theorem conclude_ne_error {solution : Solution c} {failures : Failures} {e : SolverError} :
    conclude solution failures ≠ .error (.error e) := by
  intro habs
  unfold conclude at habs
  split at habs
  · cases habs
  · cases habs

theorem Reports.of_ok {w : Witness c} (h : s.Reports options st ended (.ok w)) :
    ∃ failures, ended = .ok failures ∧ conclude st.solution failures = .ok w := by
  generalize hresult : (Except.ok w : Except (Stop SolverError) (Witness c)) = result at h
  cases h with
  | @concluded failures => exact ⟨failures, rfl, rfl⟩
  | faulted => cases hresult
  | unprinted => cases hresult
  | failed => cases hresult

theorem Reports.of_error {e : SolverError} (h : s.Reports options st ended (.error (.error e))) :
    ended = .error (.error e) := by
  generalize hresult : (Except.error (.error e) : Except (Stop SolverError) (Witness c)) =
    result at h
  cases h with
  | concluded => exact absurd hresult.symm conclude_ne_error
  | faulted => cases hresult
  | unprinted => cases hresult
  | failed =>
    cases hresult
    rfl

/-- A solve with a witness ended its run with every wire solved. -/
theorem solve_eq_ok {assignment : List (Scalar c)} {registry : Registry} {w : Witness c}
    (h : (s.solve assignment registry options).result = .ok w) :
    ∃ functions start failures st, s.Starts assignment registry options functions start ∧
      exec (s.run functions options.force) start = (.ok failures, st) ∧
      st.solution.isValid = true ∧ w = ⟨st.solution.complete, failures.recorded, failures.count⟩ ∧
      invocations (s.solve assignment registry options).trace = invocations st.trace := by
  rcases s.solve_cases assignment registry options with
    ⟨stop, -, hsolve⟩ | ⟨functions, start, hstarts, hsolve⟩
  · rw [hsolve] at h
    cases h
  · rw [hsolve] at h ⊢
    cases hexec : exec (s.run functions options.force) start with
    | mk ended st =>
      -- a witness is reported of a run that came to its end
      have hreports := reports_of_run hexec
      rw [h] at hreports
      obtain ⟨failures, rfl, hw⟩ := hreports.of_ok
      obtain ⟨hvalid, hw⟩ := conclude_eq_ok_iff.1 hw
      exact ⟨functions, start, failures, st, hstarts, hexec, hvalid, hw,
        invocations_solveFrom hexec⟩

/-- A solve with an error was refused, or its run stopped with the error. -/
theorem solve_eq_error {assignment : List (Scalar c)} {registry : Registry} {e : SolverError}
    (h : (s.solve assignment registry options).result = .error (.error e)) :
    s.Refuses assignment registry options (.error e) ∨
      ∃ functions start st, s.Starts assignment registry options functions start ∧
        exec (s.run functions options.force) start = (.error (.error e), st) := by
  rcases s.solve_cases assignment registry options with
    ⟨stop, hrefuses, hsolve⟩ | ⟨functions, start, hstarts, hsolve⟩
  · rw [hsolve] at h
    cases h
    exact .inl hrefuses
  · rw [hsolve] at h
    cases hexec : exec (s.run functions options.force) start with
    | mk ended st =>
      -- past the start, errors come from the run alone
      have hreports := reports_of_run hexec
      rw [h] at hreports
      rw [hreports.of_error] at hexec
      exact .inr ⟨functions, start, st, hstarts, hexec⟩

end Report

end Circuit

/-- The constraint that stopped the solve by not being satisfied. -/
def Report.refutedAt? (r : Report c) : Option Nat :=
  match r.result with
  | .error (.error (.unsatisfiedConstraint i _)) => some i
  | _ => none

theorem Report.refutedAt?_eq_some_iff {r : Report c} {i : Nat} :
    r.refutedAt? = some i ↔
      ∃ detail, r.result = .error (.error (.unsatisfiedConstraint i detail)) := by
  unfold refutedAt?
  split
  · rename_i j detail hresult
    rw [hresult]
    simp
  · rename_i hnot
    constructor
    · intro habs
      cases habs
    · intro h
      obtain ⟨detail, hresult⟩ := h
      exact (hnot i detail hresult).elim

/-- The fault that ended the solve. -/
def Report.fault? (r : Report c) : Option Fault :=
  match r.result with
  | .error (.fault f) => some f
  | _ => none

theorem Report.fault?_eq_some_iff {r : Report c} {f : Fault} :
    r.fault? = some f ↔ r.result = .error (.fault f) := by
  unfold fault?
  split
  · rename_i f' hresult
    rw [hresult]
    simp
  · rename_i hnot
    constructor
    · intro habs
      cases habs
    · intro hresult
      exact (hnot f hresult).elim

/-! ## An example

    The secret input `x` and the public input `y` with `(x + 1)² = y`.  A hint
    computes `x + 1`, and the constraints square it and compare.
-/

/-- Adds one. -/
def HintFunction.successor : HintFunction where
  id := ⟨7⟩
  name := "successor"
  arity := .fixed 1
  nOutputs _ := 1
  body := .fill fun _ inputs _ => inputs.headD 0 + 1

/-- The registry that keeps functions, each under its identifier. -/
def Registry.ofFunctions (functions : List HintFunction) (pool : ScratchPool) : Registry :=
  ⟨.new (functions.map fun h => (h.id, h)), pool⟩

/-- The registry that holds the successor. -/
def Registry.sample : Registry := .ofFunctions [.successor] default

namespace Circuit

/-- The call for `x + 1`. -/
def sampleCall : HintCall := ⟨⟨7⟩, [⟨[⟨.one, ⟨2⟩, .secret⟩]⟩], [⟨3⟩]⟩

/-- The circuit of `(x + 1)² = y`. -/
def sample : Circuit .bn254 .rankOne where
  layout := ⟨2, 1, 2⟩
  table := .new
  gates :=
    let term := fun i v => LinearCombination.mk [⟨.one, ⟨i⟩, v⟩]
    #[.rankOne ⟨term 3 .internal, term 3 .internal, term 4 .internal⟩,
      .rankOne ⟨term 4 .internal, term 0 .pub, term 1 .pub⟩]
  hints := ⟨[(⟨3⟩, sampleCall)]⟩
  logs := #[]
  debugInfo := []

theorem built_sample : Built [sampleCall] sample := by
  have hnew : Built [] (.new ⟨2, 1, 2⟩ : Circuit .bn254 .rankOne) := .new _
  exact .addConstraint _ (.addConstraint _ (hnew.addHint sampleCall rfl))

theorem validate_sample : sample.validate = .ok () := rfl

/-- The witness of `(2 + 1)² = 9`. -/
theorem solve_sample :
    ∃ w, (sample.solve [9, 2] .sample SolverOptions.standard.withoutOutput).result = .ok w ∧
      w.values = #[1, 9, 2, 3, 9] := by
  apply exists_ok_of_toOption
  decide +kernel

/-- Forced past `(2 + 1)² = 8`, which does not hold. -/
theorem solve_sample_forced :
    ∃ w, (sample.solve [8, 2] .sample SolverOptions.standard.withoutOutput.forced).result = .ok w ∧
      w.nUnsatisfied = 1 := by
  apply exists_ok_of_toOption
  decide +kernel

theorem solve_sample_refuted :
    ∃ detail, (sample.solve [8, 2] .sample SolverOptions.standard.withoutOutput).result =
      .error (.error (.unsatisfiedConstraint 1 detail)) := by
  apply Report.refutedAt?_eq_some_iff.1
  decide +kernel

end Circuit

end CircuitWitness
