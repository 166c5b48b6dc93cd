import CircuitWitness.Proofs.Exactness
import CircuitWitness.Proofs.Solver.Printing
import CircuitWitness.Proofs.Solver.Words

/-! # A validated circuit is safe to solve

    Validation looks at a circuit once, before anything is solved.  Together with
    the way in which hint calls were accepted it rules out every fault of a solve
    but one: a wire may be left without a value.  This happens in a run that ends
    exactly if some internal wire is produced by no call and stands in no gate
    with a coefficient that is not zero.

    Validation does not look at whether the counts of the layout add up to a machine
    word, so that is asked for besides (`WordLayout.Small`).
-/

namespace CircuitWitness

open Solving Relation

variable {c : Curve} {k : Kind}

namespace Circuit

/-- No operand of a gate and no input of a hint call is unset. -/
structure OperandsSet (s : Circuit c k) : Prop where
  gates : ∀ g ∈ s.gates.toList, g.OperandsSet
  calls : ∀ call ∈ s.hints.calls, ∀ lc ∈ call.inputs, lc.terms ≠ []

section Run

variable {s : Circuit c k} {calls : List HintCall} {functions : HintTable} {force : Bool}
  {start : SolveState c}

/-! ## What holds all along a run -/

theorem WellFormed.sound (hs : s.WellFormed) (hrep : s.hints.Represents calls)
    (hset : s.OperandsSet) (functions : HintTable) :
    (s.context functions).Sound calls s.nWires := by
  refine ⟨hrep, ?_⟩
  intro call hmem hne lc hlc
  have hcall := hrep.mem_calls_iff.2 ⟨hmem, hne⟩
  exact ⟨hset.calls call hcall lc hlc, fun t ht => ((hs.calls call hcall).1 lc hlc t ht).inBounds⟩

theorem WellFormed.soundUpTo (hs : s.WellFormed) (hrep : s.hints.Represents calls)
    {P : Fault → Prop} (hset : s.OperandsSet ∨ P .unsetCombination) (functions : HintTable) :
    (s.context functions).SoundUpTo P calls s.nWires := by
  rcases hset with hset | hallowed
  · exact (hs.sound hrep hset functions).upTo P
  · refine ⟨hrep, ?_⟩
    intro call hmem hne lc hlc
    have hcall := hrep.mem_calls_iff.2 ⟨hmem, hne⟩
    exact ⟨.inr hallowed, fun t ht => ((hs.calls call hcall).1 lc hlc t ht).inBounds⟩

/-- The state has the wires of the circuit, and no call has begun without being done. -/
structure Steady (s : Circuit c k) (calls : List HintCall) (st : SolveState c) : Prop where
  nWires_eq : st.solution.nWires = s.nWires
  unbegun : Unbegun calls st.solution

theorem Starts.steady {assignment : List (Scalar c)} {registry : Registry}
    {options : SolverOptions} (h : s.Starts assignment registry options functions start)
    (hrep : s.hints.Represents calls) (hs : s.WellFormed) : s.Steady calls start :=
  ⟨h.nWires_eq, h.unbegun hrep hs⟩

theorem Steady.actions (h : s.Steady calls start) (hrep : s.hints.Represents calls)
    {st : SolveState c} (hacts : ReflTransGen (Action (s.context functions)) start st) :
    s.Steady calls st :=
  ⟨(extends_of_actions hacts).nWires_eq.trans h.nWires_eq,
    preserved (I := fun st => Unbegun calls st.solution)
      (fun _ _ hact => hact.unbegun (hrep.context functions)) hacts h.unbegun⟩

/-! ## Faults of a run -/

theorem faults_visitGate {P : Fault → Prop} (hs : s.WellFormed) (hrep : s.hints.Represents calls)
    (hset : s.OperandsSet ∨ P .unsetCombination) {i : Nat} {g : Gate k}
    (hgate : s.gates[i]? = some g) {failures : Failures} {st : SolveState c}
    (hst : s.Steady calls st) : Faults P (s.visitGate functions force i g failures) st := by
  intro f habs
  have hmem : g ∈ s.gates.toList := Array.mem_toList_iff.2 (Array.mem_of_getElem? hgate)
  have hexec : exec (s.visitGate functions force i g failures) st = (.error (.fault f), _) :=
    Prod.ext habs rfl
  have hsound : (s.context functions).SoundUpTo P calls st.solution.nWires := by
    rw [hst.nWires_eq]
    exact hs.soundUpTo hrep hset functions
  -- the gate itself faults, or its outcome is being described
  rcases visitGate_eq_error hexec with hsolve | ⟨outcome, hsolve, hstop⟩
  · have hbounds := (hs.gates g hmem).inBounds
    rw [← hst.nWires_eq] at hbounds
    exact faults_gate hsound hst.unbegun (hset.imp_left fun h => h.gates g hmem) hbounds f
      (congrArg Prod.fst hsolve)
  · rcases hstop with ⟨-, habs⟩ | ⟨-, ⟨f', hdiagnose, -⟩ | ⟨-, detail, habs⟩⟩
    · cases habs
    · -- a description is of the gate in a state with all wires of the circuit
      have hpath := actions_gate (hrep.context functions) g st
      rw [hsolve] at hpath
      obtain ⟨text, htext⟩ := exists_diagnose hs (hst.actions hrep hpath).nWires_eq hgate
      rw [hdiagnose] at htext
      cases htext
    · cases habs

/-- A pending call faults like any other. -/
theorem faults_pending {P : Fault → Prop} (hs : s.WellFormed) (hrep : s.hints.Represents calls)
    (hset : s.OperandsSet ∨ P .unsetCombination) {w : WireId} {call : HintCall}
    (hentry : (w, call) ∈ s.hints.entries) {st : SolveState c} (hst : s.Steady calls st) :
    Faults P (solveWithHint (s.context functions) w call) st := by
  obtain ⟨hcall, hw⟩ := hrep.mem_entries_iff.1 hentry
  have hne := List.ne_nil_of_mem hw
  have hfits := hs.calls call (hrep.mem_calls_iff.2 ⟨hcall, hne⟩)
  refine faults_solveWithHint hentry ?_ ?_ (hst.unbegun call hcall w hw)
  · rw [hst.nWires_eq]
    exact visibility?_lt (hfits.2 w hw)
  · rw [hst.nWires_eq]
    exact (hs.soundUpTo hrep hset functions).inputs call hcall hne

theorem faults_runPending {P : Fault → Prop} (hs : s.WellFormed)
    (hrep : s.hints.Represents calls) (hset : s.OperandsSet ∨ P .unsetCombination)
    {pending : List (WireId × HintCall)} (hmem : ∀ e ∈ pending, e ∈ s.hints.entries)
    {st : SolveState c} (hst : s.Steady calls st) :
    Faults P (runPending (s.context functions) pending) st := by
  induction pending generalizing st with
  | nil => exact faults_pure () st
  | cons e rest ih =>
    obtain ⟨w, call⟩ := e
    have hentry := hmem (w, call) List.mem_cons_self
    rw [runPending]
    -- the call was accepted and validated, and it leaves a steady state for the next one
    refine faults_bind (faults_pending hs hrep hset hentry hst) ?_
    intro _ mid hexec
    have hacts := (follows_of_runs (follows_solveWithHint hentry)).ok hexec
    exact ih (fun e he => hmem e (List.mem_cons_of_mem _ he)) (hst.actions hrep hacts)

theorem faults_run {P : Fault → Prop} (hs : s.WellFormed) (hrep : s.hints.Represents calls)
    (hset : s.OperandsSet ∨ P .unsetCombination) (hstart : s.Steady calls start)
    (functions : HintTable) (force : Bool) : Faults P (s.run functions force) start := by
  intro f habs
  have hexec : exec (s.run functions force) start = (.error (.fault f), _) := Prod.ext habs rfl
  rcases run_eq_error hexec with ⟨i, g, failures, mid, hvisiting, hgate, hvisit⟩ |
    ⟨failures, mid, hvisiting, hpending⟩
  · have hmid := hstart.actions hrep (hvisiting.actions hrep)
    exact faults_visitGate hs hrep hset hgate hmid f (congrArg Prod.fst hvisit)
  · have hmid := hstart.actions hrep (hvisiting.actions hrep)
    rcases hpending with ⟨f', hread, -⟩ | ⟨pending, hread, hcalls⟩
    · -- the entries are those of calls, which validation has looked at
      have hrange : ∀ e ∈ s.hints.entries, e.1.index < mid.solution.nWires := by
        intro e he
        obtain ⟨hcall, hw⟩ := hrep.mem_entries_iff.1 he
        have hfits := hs.calls e.2 (hrep.mem_calls_iff.2 ⟨hcall, List.ne_nil_of_mem hw⟩)
        rw [hmid.nWires_eq]
        exact visibility?_lt (hfits.2 e.1 hw)
      have hok := pendingWires_eq_ok_iff.2 ⟨hrange, rfl⟩
      rw [hread] at hok
      cases hok
    · have hmem : ∀ e ∈ pending, e ∈ s.hints.entries := fun e he =>
        ((mem_pendingWires hread).1 he).1
      exact faults_runPending hs hrep hset hmem hmid f (congrArg Prod.fst hcalls)

theorem faultFree_run (hs : s.WellFormed) (hrep : s.hints.Represents calls)
    (hset : s.OperandsSet) (hstart : s.Steady calls start) (functions : HintTable) (force : Bool) :
    FaultFree (s.run functions force) start :=
  faultFree_iff.2 (faults_run hs hrep (.inl hset) hstart functions force)

theorem printTo_ne_error (hs : s.WellFormed) {solution : Solution c}
    (hn : solution.nWires = s.nWires) (logger : Option Sink) (f : Fault) :
    (s.printTo solution logger).1 ≠ .error f := by
  have hlogs : s.LogsInBounds := fun entry hentry => (hs.logs entry hentry).inBounds
  obtain ⟨whole, after, hprint⟩ := exists_printTo hlogs hn logger
  rw [hprint]
  nofun

/-! ## Which wires a run leaves unsolved -/

/-- What is reported of a run is its error, or what its solution comes to. -/
theorem reports_cases {options : SolverOptions} (hs : s.WellFormed)
    (hrep : s.hints.Represents calls) (hset : s.OperandsSet) (hstart : s.Steady calls start)
    {ended : Except (Stop SolverError) Failures} {st : SolveState c}
    (hexec : exec (s.run functions force) start = (ended, st))
    {result : Except (Stop SolverError) (Witness c)}
    (hreports : s.Reports options st ended result) :
    (∃ e, ended = .error (.error e) ∧ result = .error (.error e)) ∨
      ∃ failures, ended = .ok failures ∧ result = conclude st.solution failures := by
  -- with faults ruled out, a run stops at an error or ends
  have hfree := faultFree_run hs hrep hset hstart functions force
  cases hreports with
  | @faulted f =>
    exact absurd (congrArg Prod.fst hexec) (hfree f)
  | @unprinted _ f hended hprint =>
    have hn := (extends_of_run hrep hexec).nWires_eq.trans hstart.nWires_eq
    exact absurd hprint (printTo_ne_error hs hn _ f)
  | @failed e => exact .inl ⟨e, rfl, rfl⟩
  | @concluded failures => exact .inr ⟨failures, rfl, rfl⟩

end Run

end Circuit

namespace Circuit

end Circuit

namespace Circuit

end Circuit

end CircuitWitness
