import CircuitWitness.Proofs.Safety
import CircuitWitness.Proofs.Solver.Ledger

/-! # The wires of a hint call are solved together

    A solve takes steps: it asks for the call behind a term, it visits a gate, it
    makes a pending call.  Before and after every one of them, and also after one
    that stops the solve, a hint call has all its wires solved by the one run of
    its function, or none at all (`AllOrNone`).

    A gate can note a wire as its unknown and then run the calls behind its later
    terms.  The wire that it solves in the end belongs to no call and is still
    unsolved, so no wire is ever solved twice.
-/

namespace CircuitWitness

open Solving Relation

variable {c : Curve} {k : Kind} {α : Type}

/-! ## The invariant -/

/-- No wire of the call is solved, or its function has run once and the wires hold what it
    left. -/
def AllOrNone (ctx : Context c) (calls : List HintCall) (st : SolveState c) : Prop :=
  ∀ call ∈ calls, (∀ w ∈ call.wires, st.solution.get? w = none) ∨
    ∃ run outs, RanAs ctx call run outs st

section Invariant

variable {ctx : Context c} {calls : List HintCall} {st st' : SolveState c}

/-- One solved wire of a call is as good as all. -/
theorem AllOrNone.isSome (h : AllOrNone ctx calls st) {call : HintCall} (hmem : call ∈ calls)
    {w : WireId} (hw : w ∈ call.wires) (hsome : (st.solution.get? w).isSome) :
    ∀ u ∈ call.wires, (st.solution.get? u).isSome := by
  rcases h call hmem with hnone | ⟨run, outs, hran⟩
  · rw [hnone w hw] at hsome
    cases hsome
  · exact fun u hu => hran.isSome hu

theorem Ledger.allOrNone (h : Ledger ctx calls st) : AllOrNone ctx calls st := by
  intro call hmem
  rcases h call hmem with hwaits | hran
  · exact .inl hwaits.unsolved
  · exact .inr hran

/-- A call that stops the solve leaves the solution as it is. -/
theorem HintStopped.solution_eq (h : HintStopped ctx st st') (hrep : ctx.hints.Represents calls)
    (hst : Unbegun calls st.solution) : st'.solution = st.solution := by
  obtain ⟨w, call, fn, stop, hasked, hends⟩ := h
  cases hends with
  | refused hread => rfl
  | failed hread hcall => rfl
  | broke hread hcall hset =>
    obtain ⟨hmem, hw⟩ := hrep.mem_entries_iff.1 hasked.produces
    obtain ⟨solution, hok⟩ := (hst call hmem w hw hasked.unsolved).exists_setAll
      (hasked.length_outputs hcall)
    rw [hset] at hok
    cases hok

/-- A call that stops the solve may have run its function, but it solves none of its
    wires. -/
theorem Ledger.allOrNone_stopped (h : Ledger ctx calls st) (hrep : ctx.hints.Represents calls)
    (hst : Unbegun calls st.solution) (hstop : HintStopped ctx st st') :
    AllOrNone ctx calls st' := by
  have hsame := hstop.solution_eq hrep hst
  obtain ⟨w, call₀, fn, stop, hasked, hends⟩ := hstop
  have hwaits := h.waits hrep hasked
  intro call hmem
  rw [hsame]
  rcases h call hmem with hwaits' | ⟨run, outs, hran⟩
  · exact .inl hwaits'.unsolved
  · -- the call has run, so it is not the one that stopped
    have hne : call₀ ≠ call := by
      intro heq
      obtain ⟨-, hw⟩ := hrep.mem_entries_iff.1 hasked.produces
      have hsome := hran.isSome (heq ▸ hw)
      rw [hwaits.unsolved w hw] at hsome
      cases hsome
    have htrace : runsOf call st'.trace = runsOf call st.trace := by
      -- a call that stops enters the run of its own function and of no other
      have hrun : ∀ xs outs solution, runsOf call
          (st.afterRun ⟨fn, w, call₀, xs, fn.zeros call₀⟩ outs solution).trace =
            runsOf call st.trace := fun _ _ _ => by rw [runsOf_afterRun, if_neg hne]
      cases hends with
      | refused hread => exact runsOf_afterRefusal call st _ _
      | failed hread hcall => exact hrun _ _ _
      | broke hread hcall hset => exact hrun _ _ _
    exact .inr ⟨run, outs, hran.of_extends htrace (hsame ▸ .refl _)⟩

end Invariant

/-! ## Steps of a solve -/

/-- What stopped a step, if anything did. -/
def stopOf : Except (Stop SolverError) α → Option (Stop SolverError)
  | .ok _ => none
  | .error stop => some stop

namespace Circuit

/-- A step of a solve, with what stopped it, if anything did. -/
inductive Step (s : Circuit c k) (functions : HintTable) (force : Bool) (st : SolveState c) :
    Option (Stop SolverError) → SolveState c → Prop where
  /-- The call behind a term of a gate is asked for. -/
  | asked {g : Gate k} {t : Term} {r : Except (Stop SolverError) Unit} {st' : SolveState c}
      (hgate : g ∈ s.gates.toList) (hterm : t ∈ g.terms)
      (hexec : exec (resolve (s.context functions) t) st = (r, st')) :
      Step s functions force st (stopOf r) st'
  /-- A gate is visited. -/
  | visited {i : Nat} {g : Gate k} {failures : Failures}
      {r : Except (Stop SolverError) Failures} {st' : SolveState c} (hgate : s.gates[i]? = some g)
      (hexec : exec (s.visitGate functions force i g failures) st = (r, st')) :
      Step s functions force st (stopOf r) st'
  /-- A pending call is made. -/
  | made {w : WireId} {call : HintCall} {r : Except (Stop SolverError) Unit}
      {st' : SolveState c} (hentry : (w, call) ∈ s.hints.entries)
      (hexec : exec (solveWithHint (s.context functions) w call) st = (r, st')) :
      Step s functions force st (stopOf r) st'

/-- The state comes after steps of a solve that did not stop it. -/
def Reached (s : Circuit c k) (functions : HintTable) (force : Bool) :
    SolveState c → SolveState c → Prop :=
  ReflTransGen fun st st' => s.Step functions force st none st'

section Steps

variable {s : Circuit c k} {functions : HintTable} {force : Bool} {start st st' : SolveState c}
  {calls : List HintCall}

theorem Step.path (hrep : s.hints.Represents calls) {stop : Option (Stop SolverError)}
    (h : s.Step functions force st stop st') :
    ∃ mid, ReflTransGen (Action (s.context functions)) st mid ∧
      (st' = mid ∨ stop.isSome ∧ HintStopped (s.context functions) mid st') := by
  -- whatever a step computes, it is a path of actions with perhaps a stop at the end
  have hpath : ∀ {β : Type} {r : Except (Stop SolverError) β},
      Path (Action (s.context functions)) (HintStopped (s.context functions)) st (r, st') →
        ∃ mid, ReflTransGen (Action (s.context functions)) st mid ∧
          (st' = mid ∨ (stopOf r).isSome ∧ HintStopped (s.context functions) mid st') := by
    intro β r hpath
    cases r with
    | ok b => exact ⟨st', hpath, .inl rfl⟩
    | error stop =>
      obtain ⟨mid, hacts, hlast⟩ := hpath
      exact ⟨mid, hacts, hlast.imp_right fun hstop => ⟨rfl, hstop⟩⟩
  cases h with
  | asked hgate hterm hexec =>
    exact hpath (hexec ▸ follows_of_runs (follows_resolve (s.context functions) _) st)
  | visited hgate hexec => exact hpath (path_of_visitGate hrep hexec)
  | made hentry hexec =>
    exact hpath (hexec ▸ follows_of_runs (follows_solveWithHint hentry) st)

theorem Reached.actions (hrep : s.hints.Represents calls)
    (h : s.Reached functions force start st) :
    ReflTransGen (Action (s.context functions)) start st := by
  induction h with
  | refl => exact .refl
  | tail _ hstep ih =>
    obtain ⟨mid, hacts, rfl | ⟨habs, -⟩⟩ := hstep.path hrep
    · -- only a last step stops, and the ones here go on
      exact ih.trans hacts
    · cases habs

/-! ## The steps that a run takes -/

/-- A search asks for the calls behind its terms one by one. -/
theorem reached_of_seekUnknown {π : Type} {term : π → Term} {clash : π → π → Bool} {g : Gate k}
    (hgate : g ∈ s.gates.toList) {places : List π} (hterms : ∀ p ∈ places, term p ∈ g.terms)
    {found : Option π} {u : Unknowns π}
    (hexec : exec (seekUnknown (s.context functions) term clash found places) st =
      (.ok u, st')) : s.Reached functions force st st' := by
  -- each call asked for is a step, until the search stops at a clash or runs out of terms
  induction places generalizing found st with
  | nil =>
    cases hexec
    exact .refl
  | cons p rest ih =>
    have hrest := fun q hq => hterms q (List.mem_cons_of_mem p hq)
    obtain ⟨mid, hresolve, hstep⟩ := seekUnknown_cons_eq_ok hexec
    have hasked : s.Reached functions force st mid :=
      .single (.asked hgate (hterms p List.mem_cons_self) hresolve)
    rcases hstep with ⟨-, hexec⟩ | ⟨q, -, -, -, rfl, -⟩ | ⟨-, -, hexec⟩
    · exact hasked.trans (ih hrest hexec)
    · exact hasked
    · exact hasked.trans (ih hrest hexec)

/-- What a gate finds it finds in a state of the solve. -/
theorem reached_of_finds {g : Gate k} (hgate : g ∈ s.gates.toList) {w : WireId}
    (h : g.Finds (s.context functions) st st' w) : s.Reached functions force st st' := by
  cases g with
  | rankOne g =>
    obtain ⟨p, hexec, -⟩ := h
    exact reached_of_seekUnknown hgate (fun p hp => RankOne.term_mem_terms hp) hexec
  | sparse g =>
    obtain ⟨t, hexec, -⟩ := h
    exact reached_of_seekUnknown hgate (fun t ht => ht) hexec

theorem Visiting.reached {i : Nat} {failures : Failures}
    (h : s.Visiting functions force start i failures st) :
    s.Reached functions force start st := by
  induction h with
  | start => exact .refl
  | next hvisiting hgate hexec ih => exact ih.tail (.visited hgate hexec)

/-- The pending calls are made one by one, and the solve stops at the first that stops. -/
theorem reached_of_runPending {pending : List (WireId × HintCall)}
    (hmem : ∀ e ∈ pending, e ∈ s.hints.entries) {r : Except (Stop SolverError) Unit}
    (hexec : exec (runPending (s.context functions) pending) st = (r, st')) :
    ∃ mid, s.Reached functions force st mid ∧
      (st' = mid ∨ ∃ stop, s.Step functions force mid stop st') := by
  induction pending generalizing st with
  | nil =>
    cases hexec
    exact ⟨_, .refl, .inl rfl⟩
  | cons e rest ih =>
    obtain ⟨w, call⟩ := e
    have hentry := hmem (w, call) List.mem_cons_self
    rw [runPending, exec_bind] at hexec
    cases hcall : exec (solveWithHint (s.context functions) w call) st with
    | mk r' mid =>
      rw [hcall] at hexec
      cases r' with
      | ok u =>
        obtain ⟨mid', hreached, hlast⟩ :=
          ih (fun e he => hmem e (List.mem_cons_of_mem _ he)) hexec
        exact ⟨mid', .head (.made hentry hcall) hreached, hlast⟩
      | error stop =>
        cases hexec
        exact ⟨st, .refl, .inr ⟨_, .made hentry hcall⟩⟩

/-- A run ends after steps that did not stop it, or after one more step. -/
theorem reached_of_run {ended : Except (Stop SolverError) Failures}
    (hexec : exec (s.run functions force) start = (ended, st)) :
    ∃ mid, s.Reached functions force start mid ∧
      (st = mid ∨ ∃ stop, s.Step functions force mid stop st) := by
  -- how the calls end after the gates is the same for runs that stop and runs that do not
  have hpending : ∀ {mid pending r}, s.Reached functions force start mid →
      s.pendingWires mid.solution = .ok pending →
      exec (runPending (s.context functions) pending) mid = (r, st) →
      ∃ mid', s.Reached functions force start mid' ∧
        (st = mid' ∨ ∃ stop, s.Step functions force mid' stop st) := by
    intro mid pending r hreached hread hcalls
    obtain ⟨mid', hreached', hlast⟩ :=
      reached_of_runPending (fun e he => ((mem_pendingWires hread).1 he).1) hcalls
    exact ⟨mid', hreached.trans hreached', hlast⟩
  cases ended with
  | ok failures =>
    obtain ⟨mid, pending, hvisiting, hread, hcalls⟩ := visiting_of_run hexec
    exact hpending hvisiting.reached hread hcalls
  | error stop =>
    rcases run_eq_error hexec with ⟨i, g, failures, mid, hvisiting, hgate, hvisit⟩ |
      ⟨failures, mid, hvisiting, ⟨f, -, -, rfl⟩ | ⟨pending, hread, hcalls⟩⟩
    · exact ⟨mid, hvisiting.reached, .inr ⟨_, .visited hgate hvisit⟩⟩
    · exact ⟨_, hvisiting.reached, .inl rfl⟩
    · exact hpending hvisiting.reached hread hcalls

end Steps

/-! ## What a solve keeps -/

/-- What holds in a state of a solve and of the steps from it. -/
structure Together (s : Circuit c k) (functions : HintTable) (force : Bool)
    (calls : List HintCall) (st : SolveState c) : Prop where
  /-- A call has not run and none of its wires is solved, or all are, by its one run. -/
  ledger : Ledger (s.context functions) calls st
  /-- A gate isolates a wire of no call, and one that is unsolved when it is solved. -/
  isolated : ∀ g ∈ s.gates.toList, ∀ mid w, g.Finds (s.context functions) st mid w →
    AllOrNone (s.context functions) calls mid ∧ mid.solution.get? w = none ∧
      ∀ call ∈ calls, w ∉ call.wires
  /-- Also a step that stops the solve keeps the wires of a call together, and none stops
      because a wire is solved already. -/
  step : ∀ stop st', s.Step functions force st stop st' →
    AllOrNone (s.context functions) calls st' ∧ ∀ w, stop ≠ some (.fault (.solvedTwice w))

section Solve

variable {s : Circuit c k} {functions : HintTable} {force : Bool} {start st st' : SolveState c}
  {calls : List HintCall}

theorem Step.allOrNone (hrep : s.hints.Represents calls) {stop : Option (Stop SolverError)}
    (h : s.Step functions force st stop st') (hledger : Ledger (s.context functions) calls st)
    (hst : s.Steady calls st) : AllOrNone (s.context functions) calls st' := by
  obtain ⟨mid, hacts, hlast⟩ := h.path hrep
  have hmid := hledger.actions (hrep.context functions) hacts
  rcases hlast with rfl | ⟨-, hstop⟩
  · exact hmid.allOrNone
  · exact hmid.allOrNone_stopped (hrep.context functions) (hst.actions hrep hacts).unbegun hstop

/-- The only fault of a step of a validated circuit is an unset combination. -/
theorem Step.fault_eq (hs : s.WellFormed) (hrep : s.hints.Represents calls)
    (hst : s.Steady calls st) {f : Fault} (h : s.Step functions force st (some (.fault f)) st') :
    f = .unsetCombination := by
  -- a step faults if what it computes does, so the lemmas on faults apply to all three
  have hfault : ∀ {β : Type} {x : Solving c β} {r : Except (Stop SolverError) β},
      Faults (· = .unsetCombination) x st → exec x st = (r, st') →
        stopOf r = some (.fault f) → f = .unsetCombination := by
    intro β x r hfaults hexec hstop
    cases r with
    | ok b => cases hstop
    | error stop =>
      cases hstop
      exact hfaults f (congrArg Prod.fst hexec)
  generalize hstop : some (Stop.fault f) = stop at h
  cases h with
  | @asked g t r _ hgate hterm hexec =>
    refine hfault ?_ hexec hstop.symm
    have hbounds := (hs.gates g hgate).inBounds.1 t hterm
    have hsound := hs.soundUpTo (P := (· = .unsetCombination)) hrep (.inr rfl) functions
    rw [← hst.nWires_eq] at hbounds hsound
    exact faults_resolve hsound hst.unbegun hbounds
  | visited hgate hexec =>
    exact hfault (faults_visitGate (P := (· = .unsetCombination)) hs hrep (.inr rfl) hgate hst)
      hexec hstop.symm
  | made hentry hexec =>
    exact hfault (faults_pending (P := (· = .unsetCombination)) hs hrep (.inr rfl) hentry hst)
      hexec hstop.symm

theorem together_of_reached {assignment : List (Scalar c)} {registry : Registry}
    {options : SolverOptions} (hs : s.WellFormed) (hrep : s.hints.Represents calls)
    (hstarts : s.Starts assignment registry options functions start)
    (hreached : s.Reached functions force start st) : s.Together functions force calls st := by
  -- the invariants hold of every state that is reached, and so of that after a search
  have hkeeps : ∀ {st}, s.Reached functions force start st →
      Ledger (s.context functions) calls st ∧ s.Steady calls st := by
    intro st hreached
    have hacts := hreached.actions hrep
    exact ⟨(hstarts.ledger hrep hs).actions (hrep.context functions) hacts,
      (hstarts.steady hrep hs).actions hrep hacts⟩
  obtain ⟨hledger, hsteady⟩ := hkeeps hreached
  constructor
  case ledger => exact hledger
  case isolated =>
    intro g hgate mid w hfinds
    have hmid := hreached.trans (reached_of_finds hgate hfinds)
    refine ⟨(hkeeps hmid).1.allOrNone, ?_⟩
    -- the unknown of a search is a wire that is open when the search is over
    obtain ⟨t, rfl, hexposed⟩ := hfinds.exposed (hrep.context functions)
    exact ⟨hexposed.isOpen.unsolved,
      (hrep.context functions).producer?_eq_none_iff.1 hexposed.unproduced⟩
  case step =>
    intro stop st' hstep
    refine ⟨hstep.allOrNone hrep hledger hsteady, ?_⟩
    intro w habs
    subst habs
    cases hstep.fault_eq hs hrep hsteady

/-- The faults of solving a validated circuit are wires without a value and unset
    combinations. -/
theorem fault_of_solve (hs : s.WellFormed) (hrep : s.hints.Represents calls)
    {assignment : List (Scalar c)} {registry : Registry} {options : SolverOptions} {f : Fault}
    (h : (s.solve assignment registry options).result = .error (.fault f)) :
    f = .uninstantiatedWires ∨ f = .unsetCombination := by
  rcases s.solve_cases assignment registry options with
    ⟨stop, hrefuses, hsolve⟩ | ⟨functions, start, hstarts, hsolve⟩
  · rw [hsolve] at h
    cases h
    cases hrefuses with
    | seeds hlen hseeds => exact absurd hseeds (not_refuses_seeds hs.oneWire hlen f)
  · rw [hsolve] at h
    have hsteady := hstarts.steady hrep hs
    cases hexec : exec (s.run functions options.force) start with
    | mk ended st =>
      have hreports := reports_of_run hexec
      generalize (s.solveFrom functions options start).result = result at hreports h
      cases hreports with
      | faulted =>
        cases h
        exact .inr (faults_run (P := (· = .unsetCombination)) hs hrep (.inr rfl) hsteady functions
          options.force f (congrArg Prod.fst hexec))
      | unprinted hended hprint =>
        have hn := (extends_of_run hrep hexec).nWires_eq.trans hsteady.nWires_eq
        exact absurd hprint (printTo_ne_error hs hn _ _)
      | failed => cases h
      | concluded =>
        unfold conclude at h
        split at h
        · cases h
        · cases h
          exact .inl rfl

end Solve

end Circuit

open Circuit in
/-- All through a solve of a validated circuit the wires of a hint call are solved
    together, by the run of its function; no gate isolates one of them, and no wire is
    solved twice. -/
theorem solve_all_or_none {calls : List HintCall} {s : Circuit c k} (hbuilt : Built calls s)
    (hvalid : s.validate = .ok ()) (assignment : List (Scalar c)) (registry : Registry)
    (options : SolverOptions) :
    (∀ functions start, s.Starts assignment registry options functions start →
        (∀ st, s.Reached functions options.force start st →
          s.Together functions options.force calls st) ∧
        ∀ ended st, exec (s.run functions options.force) start = (ended, st) →
          AllOrNone (s.context functions) calls st) ∧
      ∀ w, (s.solve assignment registry options).result ≠ .error (.fault (.solvedTwice w)) := by
  have hrep := hbuilt.represents
  have hs := validate_eq_ok_iff.1 hvalid
  constructor
  · intro functions start hstarts
    have htogether : ∀ st, s.Reached functions options.force start st →
        s.Together functions options.force calls st := fun st =>
      together_of_reached hs hrep hstarts
    refine ⟨htogether, ?_⟩
    intro ended st hexec
    -- a run ends in a state that it reaches, or it stops in a step from one
    obtain ⟨mid, hreached, rfl | ⟨stop, hstep⟩⟩ := reached_of_run hexec
    · exact (htogether _ hreached).ledger.allOrNone
    · exact ((htogether mid hreached).step stop st hstep).1
  · intro w habs
    rcases fault_of_solve hs hrep habs with habs | habs
    · cases habs
    · cases habs

/-- When the sample is solved, the wire of its call holds what its function left. -/
theorem solve_all_or_none_sample :
    ∃ functions start failures st,
      Circuit.sample.Starts [9, 2] .sample SolverOptions.standard.withoutOutput functions start ∧
      exec (Circuit.sample.run functions false) start = (.ok failures, st) ∧
      st.solution.get? ⟨3⟩ = some 3 ∧
      AllOrNone (Circuit.sample.context functions) [Circuit.sampleCall] st := by
  obtain ⟨w, hw, hvalues⟩ := Circuit.solve_sample
  obtain ⟨functions, start, failures, st, hstarts, hexec, hvalid, rfl, -⟩ :=
    Circuit.solve_eq_ok hw
  obtain ⟨hkeeps, -⟩ := solve_all_or_none Circuit.built_sample Circuit.validate_sample [9, 2]
    .sample SolverOptions.standard.withoutOutput
  refine ⟨functions, start, failures, st, hstarts, hexec, ?_,
    (hkeeps functions start hstarts).2 _ _ hexec⟩
  -- every wire is solved, and the values of the witness tell which value this one has
  have hsome := (hstarts.isValid_iff Circuit.built_sample.represents hexec).1 hvalid ⟨3⟩ (by decide)
  obtain ⟨x, hx⟩ := Option.isSome_iff_exists.1 hsome
  have hvalue := Solution.getElem?_complete hx
  change st.solution.complete = #[1, 9, 2, 3, 9] at hvalues
  rw [hvalues] at hvalue
  cases hvalue
  exact hx

end CircuitWitness
