import CircuitWitness.Proofs.Solver.Warnings

/-! # Forced and unforced solves

    A forced solve and an unforced one take the same steps up to the first gate
    that is not satisfied.  If there is none they report the same.  If there is
    one, it stops the unforced run (`Circuit.Refuted`), and the forced one warns
    of it first.

    The unforced solve then prints the logs of a run that was cut short.  A log
    entry that cannot be rendered makes it fault there, and the forced solve, which
    prints other values, need not come to that entry before its sink is full.
-/

namespace CircuitWitness

open Solving Relation

variable {c : Curve} {k : Kind}

/-- Stops at constraints that fail. -/
def SolverOptions.unforced (o : SolverOptions) : SolverOptions := { o with force := false }

namespace Circuit

variable {s : Circuit c k} {assignment : List (Scalar c)} {registry : Registry}
  {options : SolverOptions} {functions : HintTable} {start : SolveState c}

/-! ## The unforced run stops at a gate -/

/-- The unforced run stops in a state because the constraint at an index is not
    satisfied. -/
def Refuted (s : Circuit c k) (assignment : List (Scalar c)) (registry : Registry)
    (options : SolverOptions) (i : Nat) (detail : String) (st : SolveState c) : Prop :=
  ∃ functions start, s.Starts assignment registry options functions start ∧
    exec (s.run functions false) start =
      (.error (.error (.unsatisfiedConstraint i detail)), st)

/-- Before the gates that an unforced run visits, no visited gate failed. -/
theorem Visiting.not_failsWith {i j : Nat} {failures : Failures} {st : SolveState c}
    (h : s.Visiting functions false start i failures st) (hlt : j < i) (detail : String) :
    ¬s.FailsWith functions start j detail := by
  intro hfails
  obtain ⟨g, failures₁, failures₂, st₁, st₂, hvisiting, hgate, hexec⟩ := h.passed hlt
  have hrefutes := (hvisiting.forced.failsWith_iff hgate).1 hfails
  have hends := s.visitEnds functions j g failures₁ st₁
  rw [hexec] at hends
  generalize exec (s.visitGate functions true j g failures₁) st₁ = forced at hends
  cases hends with
  | agree hquiet hnot hstop hsame => exact hnot detail hrefutes

/-- The gate that stops an unforced run is the first that fails in the forced one. -/
theorem failsWith_of_refuted {i : Nat} {detail : String} {st : SolveState c}
    (hexec : exec (s.run functions false) start =
      (.error (.error (.unsatisfiedConstraint i detail)), st)) :
    s.FailsWith functions start i detail ∧
      ∀ j detail', j < i → ¬s.FailsWith functions start j detail' := by
  rcases run_eq_error hexec with ⟨j, g, failures, mid, hvisiting, hgate, hvisit⟩ |
    ⟨failures, mid, hvisiting, ⟨f, -, habs, -⟩ | ⟨pending, hpending, hcalls⟩⟩
  · have hends := s.visitEnds functions j g failures mid
    -- with force the same visit warns of the constraint, so that it fails
    rw [hvisit] at hends
    generalize exec (s.visitGate functions true j g failures) mid = forced at hends
    generalize hunforced : ((.error (.error (.unsatisfiedConstraint i detail)), st) :
      Except (Stop SolverError) Failures × SolveState c) = unforced at hends
    cases hends with
    | agree hquiet hnot hstop hsame =>
      cases hunforced
      -- a visit that ends alike with force is not stopped by a constraint
      exact absurd rfl (hstop i detail)
    | part hquiet hrefutes =>
      cases hunforced
      exact ⟨(hvisiting.forced.failsWith_iff hgate).2 hrefutes,
        fun j detail' hlt => hvisiting.not_failsWith hlt detail'⟩
  · cases habs
  · -- hint calls do not raise such an error
    exact (raises_runPending (s.context functions) pending mid (.unsatisfiedConstraint i detail)
      (by rw [hcalls])).elim

/-- A list in strictly increasing order begins with the entry that none comes before. -/
theorem head?_of_pairwise_lt {issued : List (Nat × String)}
    (hordered : (issued.map Prod.fst).Pairwise (· < ·)) {p : Nat × String} (hp : p ∈ issued)
    (hfirst : ∀ q ∈ issued, ¬q.1 < p.1) : issued.head? = some p := by
  cases issued with
  | nil => cases hp
  | cons q rest =>
    rcases List.mem_cons.1 hp with rfl | hmem
    · rfl
    · have hlt := (List.pairwise_cons.1 hordered).1 p.1 (List.mem_map_of_mem hmem)
      exact absurd hlt (hfirst q List.mem_cons_self)

/-! ## The two reports -/

/-- Unforced and forced, a solve is refused alike or starts from the same state. -/
theorem solve_force_cases (s : Circuit c k) (assignment : List (Scalar c)) (registry : Registry)
    (options : SolverOptions) :
    (s.solve assignment registry options.unforced = s.solve assignment registry options.forced ∧
        (∃ stop, s.Refuses assignment registry options stop ∧
          (s.solve assignment registry options.forced).result = .error stop) ∧
        (s.solve assignment registry options.forced).trace =
          #[.started k s.nWires s.nConstraints] ∧
        ∀ functions start, ¬s.Starts assignment registry options functions start) ∨
      ∃ functions start, s.Starts assignment registry options functions start ∧
        s.solve assignment registry options.unforced =
          s.solveFrom functions options.unforced start ∧
        s.solve assignment registry options.forced =
          s.solveFrom functions options.forced start := by
  have hunforced : hintTable registry options.unforced = hintTable registry options := rfl
  have hforced : hintTable registry options.forced = hintTable registry options := rfl
  simp only [solve_eq]
  -- the solves part in the run only, so it is the checks before that matter
  by_cases hlen : assignment.length ≠ s.layout.nInputs
  · rw [if_pos hlen, if_pos hlen]
    exact .inl ⟨rfl, ⟨_, .size hlen, rfl⟩, rfl, fun _ _ hstarts => hlen hstarts.length_eq⟩
  · rw [if_neg hlen, if_neg hlen, hunforced, hforced]
    cases hfunctions : hintTable registry options with
    | error e =>
      refine .inl ⟨rfl, ⟨_, .functions hfunctions, rfl⟩, rfl, ?_⟩
      intro functions start hstarts
      rw [hstarts.functions_eq] at hfunctions
      cases hfunctions
    | ok functions =>
      have hlen := not_not.1 hlen
      cases hseeds : (Solution.unsolved s.nWires).setAll (seeds assignment) with
      | mk r solution =>
        cases r with
        | error f =>
          refine .inl ⟨rfl, ⟨_, .seeds hlen (congrArg Prod.fst hseeds), rfl⟩, rfl, ?_⟩
          intro functions start hstarts
          rw [hstarts.seeded] at hseeds
          cases hseeds
        | ok u => exact .inr ⟨functions, _, ⟨hlen, hfunctions, hseeds, rfl, rfl⟩, rfl, rfl⟩

/-- A solve is not refused as a constraint that is not satisfied. -/
theorem Refuses.ne_unsatisfied {stop : Stop SolverError}
    (h : s.Refuses assignment registry options stop) (i : Nat) (detail : String) :
    stop ≠ .error (.unsatisfiedConstraint i detail) := by
  intro habs
  cases h with
  | size h => cases habs
  | functions h =>
    obtain ⟨id, name, rfl⟩ := HintTable.eq_duplicateHint_of_ofList h
    cases habs
  | seeds hlen h => cases habs

/-- How the reports of an unforced and a forced solve of the same inputs compare. -/
structure Tandem (s : Circuit c k) (assignment : List (Scalar c)) (registry : Registry)
    (options : SolverOptions) (unforced forced : Report c) : Prop where
  /-- The unforced solve has the witnesses under which no constraint fails. -/
  ok_iff : ∀ w, unforced.result = .ok w ↔ forced.result = .ok w ∧ w.nUnsatisfied = 0
  /-- A run that no unsatisfied constraint stops is reported alike. -/
  agree : (∀ i detail st, ¬s.Refuted assignment registry options i detail st) → unforced = forced
  /-- An unsatisfied constraint is reported if one stopped the run. -/
  reported : ∀ i detail, unforced.result = .error (.error (.unsatisfiedConstraint i detail)) →
    ∃ st, s.Refuted assignment registry options i detail st
  /-- It is reported if the logs can be printed. -/
  refuted : ∀ i detail st, s.Refuted assignment registry options i detail st →
    unforced.result = .error (.error (.unsatisfiedConstraint i detail)) ∨
      ∃ f, (s.printTo st.solution options.logger).1 = .error f ∧
        unforced.result = .error (.fault f)
  /-- The forced solve warns of it before it warns of any other. -/
  first : ∀ i detail st, s.Refuted assignment registry options i detail st →
    (warnings forced.trace).head? = some (i, detail) ∧
      ∀ w, forced.result = .ok w → w.unsatisfied[0]? = some i
  /-- The warnings are of ever later constraints, so no constraint has two. -/
  ordered : ((warnings forced.trace).map Prod.fst).Pairwise (· < ·)
  /-- There is a warning of each constraint that fails, and of no other. -/
  issued : ∀ functions start, s.Starts assignment registry options functions start →
    ∀ i detail, (i, detail) ∈ warnings forced.trace ↔ s.FailsWith functions start i detail
  /-- The witness counts the warnings, also past those that it records. -/
  counted : ∀ w, forced.result = .ok w → w.nUnsatisfied = (warnings forced.trace).length ∧
    w.unsatisfied.toList = ((warnings forced.trace).map Prod.fst).take 100
  /-- The constraints that were warned of are those that fail under the witness. -/
  final : ∀ calls, Built calls s → ∀ w, forced.result = .ok w →
    (warnings forced.trace).map Prod.fst = s.failing w.values

/-- A refused solve is the same forced. -/
theorem tandem_of_refuses {report : Report c} {stop : Stop SolverError}
    (hrefuses : s.Refuses assignment registry options stop) (hresult : report.result = .error stop)
    (htrace : report.trace = #[.started k s.nWires s.nConstraints])
    (hnot : ∀ functions start, ¬s.Starts assignment registry options functions start) :
    s.Tandem assignment registry options report report := by
  -- nothing was run, so that there is neither a witness nor a warning
  have hok : ∀ w, report.result ≠ .ok w := by
    intro w habs
    rw [hresult] at habs
    cases habs
  have hsilent : warnings report.trace = [] := by
    rw [htrace]
    rfl
  have hrefuted : ∀ i detail st, ¬s.Refuted assignment registry options i detail st := by
    intro i detail st ⟨functions, start, hstarts, _⟩
    exact hnot functions start hstarts
  constructor
  case ok_iff => exact fun w => ⟨fun h => absurd h (hok w), fun h => absurd h.1 (hok w)⟩
  case agree => exact fun _ => rfl
  case reported =>
    intro i detail habs
    rw [hresult] at habs
    exact absurd (Except.error.inj habs) (hrefuses.ne_unsatisfied i detail)
  case refuted => exact fun i detail st h => absurd h (hrefuted i detail st)
  case first => exact fun i detail st h => absurd h (hrefuted i detail st)
  case ordered =>
    rw [hsilent]
    exact .nil
  case issued => exact fun functions start h => absurd h (hnot functions start)
  case counted => exact fun w h => absurd h (hok w)
  case final => exact fun _ _ w h => absurd h (hok w)

theorem Starts.warnings_eq (h : s.Starts assignment registry options functions start) :
    warnings start.trace = [] := by
  rw [h.trace_eq]
  rfl

/-- The warnings of the report are those of the run. -/
theorem warnings_solveFrom {ended : Except (Stop SolverError) Failures} {st : SolveState c}
    (hexec : exec (s.run functions options.force) start = (ended, st)) :
    warnings (s.solveFrom functions options start).trace = warnings st.trace :=
  filterMap_solveFrom (fun _ => rfl) (fun _ => rfl) hexec

theorem solveFrom_forced
    (hnot : ∀ i detail, (exec (s.run functions false) start).1 ≠
      .error (.error (.unsatisfiedConstraint i detail))) :
    s.solveFrom functions options.forced start =
      s.solveFrom functions options.unforced start := by
  have hexec : (s.run functions options.forced.force).run.run start =
      (s.run functions options.unforced.force).run.run start := exec_run_forced hnot
  unfold solveFrom
  rw [hexec]
  rfl

/-- The witness of a forced solve counts the warnings. -/
theorem counted_of_starts (hstarts : s.Starts assignment registry options functions start)
    {ended : Except (Stop SolverError) Failures} {st : SolveState c}
    (hexec : exec (s.run functions true) start = (ended, st)) {w : Witness c}
    (hw : (s.solveFrom functions options.forced start).result = .ok w) :
    (∃ failures, ended = .ok failures) ∧ w.values = st.solution.complete ∧
      w.nUnsatisfied = (warnings st.trace).length ∧
      w.unsatisfied.toList = ((warnings st.trace).map Prod.fst).take 100 := by
  have hreports : s.Reports options.forced st ended
      (s.solveFrom functions options.forced start).result := reports_of_run hexec
  rw [hw] at hreports
  -- a run with a witness has ended, and its failures are those of the witness
  obtain ⟨failures, rfl, hconclude⟩ := hreports.of_ok
  obtain ⟨-, rfl⟩ := conclude_eq_ok_iff.1 hconclude
  have hnoted := (warned_of_run hstarts.warnings_eq hexec).2.2 failures rfl
  -- each warning noted one failure
  rw [Failures.foldl_note] at hnoted
  subst hnoted
  exact ⟨⟨_, rfl⟩, rfl, List.length_map _, rfl⟩

/-- The gates that a forced run to the end has warned of are those that fail under the
    completed solution. -/
theorem map_fst_warnings_of_run {calls : List HintCall} (hrep : s.hints.Represents calls)
    (hstart : warnings start.trace = []) {failures : Failures} {st : SolveState c}
    (hexec : exec (s.run functions true) start = (.ok failures, st)) :
    (warnings st.trace).map Prod.fst = s.failing st.solution.complete := by
  obtain ⟨mid, pending, hvisiting, hpending, hcalls⟩ := visiting_of_run hexec
  have hext := extends_of_runs ((follows_pending hpending).ok hcalls)
  have hagrees := st.solution.agrees_complete.of_extends hext
  rw [(follows_quiet (follows_pending hpending)).quiet hcalls,
    hvisiting.map_fst_warnings hrep hstart hagrees]
  exact (judged_of_run hrep hexec).2.failing_eq

section Starts

variable (hstarts : s.Starts assignment registry options functions start)

include hstarts

/-- A solve has one run, so the one that a constraint stopped is the unforced run from its
    start. -/
theorem run_of_refuted {i : Nat} {detail : String} {st : SolveState c}
    (hrefuted : s.Refuted assignment registry options i detail st) :
    exec (s.run functions false) start =
      (.error (.error (.unsatisfiedConstraint i detail)), st) := by
  obtain ⟨functions', start', hstarts', hexec⟩ := hrefuted
  obtain ⟨rfl, rfl⟩ := hstarts.unique hstarts'
  exact hexec

theorem solveFrom_agree
    (hnot : ∀ i detail st, ¬s.Refuted assignment registry options i detail st) :
    s.solveFrom functions options.unforced start = s.solveFrom functions options.forced start := by
  refine (solveFrom_forced ?_).symm
  intro i detail habs
  exact hnot i detail _ ⟨functions, start, hstarts, Prod.ext habs rfl⟩

/-- The constraint that stops the unforced run has the first warning of the forced one. -/
theorem head?_warnings_of_refuted {i : Nat} {detail : String} {st st' : SolveState c}
    (hrefuted : s.Refuted assignment registry options i detail st')
    {ended : Except (Stop SolverError) Failures}
    (hexec : exec (s.run functions true) start = (ended, st)) :
    (warnings st.trace).head? = some (i, detail) := by
  obtain ⟨hordered, hissued, -⟩ := warned_of_run hstarts.warnings_eq hexec
  obtain ⟨hfails, hbefore⟩ := failsWith_of_refuted (run_of_refuted hstarts hrefuted)
  refine head?_of_pairwise_lt hordered ((hissued i detail).2 hfails) ?_
  intro q hq hlt
  exact hbefore q.1 q.2 hlt ((hissued q.1 q.2).1 hq)

/-- The unforced solve has the witnesses under which the forced one warned of nothing. -/
theorem solveFrom_ok_iff (w : Witness c) :
    (s.solveFrom functions options.unforced start).result = .ok w ↔
      (s.solveFrom functions options.forced start).result = .ok w ∧ w.nUnsatisfied = 0 := by
  constructor
  · intro hw
    cases hexec : exec (s.run functions false) start with
    | mk ended st =>
      have hreports : s.Reports options.unforced st ended
          (s.solveFrom functions options.unforced start).result := reports_of_run hexec
      rw [hw] at hreports
      obtain ⟨failures, rfl, hconclude⟩ := hreports.of_ok
      have hnot : ∀ i detail st, ¬s.Refuted assignment registry options i detail st := by
        intro i detail st' hrefuted
        rw [run_of_refuted hstarts hrefuted] at hexec
        cases hexec
      obtain ⟨mid, pending, hvisiting, -⟩ := visiting_of_run hexec
      obtain ⟨-, rfl⟩ := conclude_eq_ok_iff.1 hconclude
      rw [← solveFrom_agree hstarts hnot]
      exact ⟨hw, congrArg Failures.count hvisiting.failures_eq_none⟩
  · intro ⟨hw, hnone⟩
    rw [solveFrom_agree hstarts, hw]
    intro i detail st' hrefuted
    -- the constraint would have a warning, and there is none
    cases hexec : exec (s.run functions true) start with
    | mk ended st =>
      have hhead := head?_warnings_of_refuted hstarts hrefuted hexec
      obtain ⟨-, -, hcount, -⟩ := counted_of_starts hstarts hexec hw
      rw [List.length_eq_zero_iff.1 (hcount.symm.trans hnone)] at hhead
      cases hhead

/-- An unforced run that a constraint stopped is reported so, if its logs can be printed. -/
theorem result_of_refuted {i : Nat} {detail : String} {st : SolveState c}
    (hrefuted : s.Refuted assignment registry options i detail st) :
    (s.solveFrom functions options.unforced start).result =
        .error (.error (.unsatisfiedConstraint i detail)) ∨
      ∃ f, (s.printTo st.solution options.logger).1 = .error f ∧
        (s.solveFrom functions options.unforced start).result = .error (.fault f) := by
  have hreports : s.Reports options.unforced st _
      (s.solveFrom functions options.unforced start).result :=
    reports_of_run (run_of_refuted hstarts hrefuted)
  generalize (s.solveFrom functions options.unforced start).result = result at hreports ⊢
  cases hreports with
  | unprinted hended hprint => exact .inr ⟨_, hprint, rfl⟩
  | failed => exact .inl rfl

theorem tandem_of_starts :
    s.Tandem assignment registry options (s.solveFrom functions options.unforced start)
      (s.solveFrom functions options.forced start) := by
  -- all warnings come from the forced run, so it is named first
  cases hforced : exec (s.run functions true) start with
  | mk ended st =>
    have hwarnings : warnings (s.solveFrom functions options.forced start).trace =
        warnings st.trace := warnings_solveFrom hforced
    obtain ⟨hordered, hissued, -⟩ := warned_of_run hstarts.warnings_eq hforced
    constructor
    case ok_iff => exact solveFrom_ok_iff hstarts
    case agree => exact solveFrom_agree hstarts
    case reported =>
      intro i detail hresult
      cases hunforced : exec (s.run functions false) start with
      | mk ended' st' =>
        have hreports : s.Reports options.unforced st' ended'
            (s.solveFrom functions options.unforced start).result := reports_of_run hunforced
        -- printing the logs and concluding report nothing of constraints, so the run did
        rw [hresult] at hreports
        rw [hreports.of_error] at hunforced
        exact ⟨st', functions, start, hstarts, hunforced⟩
    case refuted => exact fun i detail st' hrefuted => result_of_refuted hstarts hrefuted
    case first =>
      intro i detail st' hrefuted
      have hhead := head?_warnings_of_refuted hstarts hrefuted hforced
      rw [hwarnings]
      refine ⟨hhead, ?_⟩
      intro w hw
      obtain ⟨-, -, -, hrecorded⟩ := counted_of_starts hstarts hforced hw
      -- the witness records the warnings from the first one on
      rw [← Array.getElem?_toList, hrecorded, List.getElem?_take_of_lt (by decide),
        ← List.head?_eq_getElem?, List.head?_map, hhead]
      rfl
    case ordered =>
      rw [hwarnings]
      exact hordered
    case issued =>
      intro functions' start' hstarts'
      -- a solve starts in one way only
      obtain ⟨rfl, rfl⟩ := hstarts.unique hstarts'
      rw [hwarnings]
      exact hissued
    case counted =>
      intro w hw
      rw [hwarnings]
      exact (counted_of_starts hstarts hforced hw).2.2
    case final =>
      intro calls hbuilt w hw
      obtain ⟨⟨failures, rfl⟩, hvalues, -⟩ := counted_of_starts hstarts hforced hw
      rw [hwarnings, hvalues]
      exact map_fst_warnings_of_run hbuilt.represents hstarts.warnings_eq hforced

end Starts

end Circuit

open Circuit in
/-- Unforced and forced, a solve goes through the same steps up to the first constraint
    that is not satisfied.  That constraint stops the unforced solve and has the first
    warning of the forced one, which warns of every constraint that fails. -/
theorem solve_tandem (s : Circuit c k) (assignment : List (Scalar c)) (registry : Registry)
    (options : SolverOptions) :
    s.Tandem assignment registry options (s.solve assignment registry options.unforced)
      (s.solve assignment registry options.forced) := by
  rcases s.solve_force_cases assignment registry options with
    ⟨heq, ⟨stop, hrefuses, hresult⟩, htrace, hnot⟩ | ⟨functions, start, hstarts, hu, hf⟩
  · rw [heq]
    exact tandem_of_refuses hrefuses hresult htrace hnot
  · rw [hu, hf]
    exact tandem_of_starts hstarts

/-! ## Logs that cannot be printed

    The constraint `1 ⋅ 1 = 0` fails, and the next one solves the only wire.  Of the
    two log entries the second has a wire that there is not.
-/

/-- A circuit that is not satisfied and has a log entry that cannot be rendered. -/
def Circuit.unprintable : Circuit .bn254 .rankOne where
  layout := ⟨1, 0, 1⟩
  table := .new
  gates :=
    #[.rankOne ⟨⟨[.constant .one]⟩, ⟨[.constant .one]⟩, ⟨[.constant .zero]⟩⟩,
      .rankOne ⟨⟨[⟨.one, ⟨1⟩, .internal⟩]⟩, ⟨[.constant .one]⟩, ⟨[.constant .minusOne]⟩⟩]
  hints := ⟨[]⟩
  logs :=
    let entry := fun i => LogEntry.mk "\x7b\x7d" [⟨.one, ⟨i⟩, .internal⟩]
    #[entry 1, entry 99]
  debugInfo := []

/-- Unforced, the first log line is short, and the second entry is a fault.  Forced, the
    value of the wire fills the sink, and the second entry is never rendered. -/
theorem solve_unprintable :
    (Circuit.unprintable.solve [] .empty
        (SolverOptions.standard.withOutput (.ofLimit (some 20))).unforced).result =
      .error (.fault .outOfBounds) ∧
    ∃ w, (Circuit.unprintable.solve [] .empty
      (SolverOptions.standard.withOutput (.ofLimit (some 20))).forced).result = .ok w ∧
        w.unsatisfied = #[0] := by
  constructor
  · apply Report.fault?_eq_some_iff.1
    decide +kernel
  · apply exists_ok_of_toOption
    decide +kernel

end CircuitWitness
