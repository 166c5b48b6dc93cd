import CircuitWitness.Proofs.Solver.Solve

/-! # What a hint function can rely on

    Between a circuit and its hint functions stand the checks of the arity, the sums of
    the inputs in the field, and a buffer of zeros that is split into inputs and outputs.
    Together they keep a contract with the function in every run of every solve
    (`Invocation.Contract`), also in a run that then fails.

    The contract is about the wires that are solved at that moment.  A solve comes to a
    call after the gates before it and the places before it in its gate, or after the
    pending calls before it (`Circuit.Asks`).
-/

namespace CircuitWitness

open Solving Relation

variable {c : Curve} {k : Kind}

/-! ## The contract -/

/-- What the function can rely on when it is run while the solution is `s`. -/
structure Invocation.Contract (ctx : Context c) (s : Solution c) (run : Invocation) : Prop where
  find : ctx.functions.find? run.call.id = some run.function
  /-- The function accepts that many inputs. -/
  accepts : run.function.arity.accepts run.inputs.length = true
  /-- Each input is below the modulus, and in the field it is the sum of its terms. -/
  inputs : List.Forall₂ (fun lc n => n < c.modulus ∧
    ∀ v : Valuation c, v.Agrees s → Scalar.ofNat n = denoteSum ctx.table v lc.terms)
    run.call.inputs run.inputs
  /-- The wires of the inputs are solved. -/
  solved : ∀ lc ∈ run.call.inputs, ∀ t ∈ lc.terms, t.isVirtual = false → (s.get? t.wire).isSome
  /-- There is an output for every wire of the call. -/
  nOutputs_eq : run.function.nOutputs run.inputs.length = run.call.wires.length
  /-- The outputs are zeros. -/
  outputs_eq : run.outputs = List.replicate run.call.wires.length 0

/-- A call that passed its checks and read its inputs keeps the contract. -/
theorem contract_of_read {ctx : Context c} {s : Solution c} {w : WireId} {call : HintCall}
    {fn : HintFunction} (hhandler : ctx.functions.handler w call = .ok fn) {xs : List Nat}
    (hread : s.readInputs ctx.table call.id call.inputs = (.ok (), xs)) :
    Invocation.Contract ctx s ⟨fn, w, call, xs, fn.zeros call⟩ := by
  obtain ⟨hfind, haccepts, houtputs⟩ := HintTable.handler_eq_ok_iff.1 hhandler
  obtain ⟨hreadable, rfl⟩ := (Solution.readInputs_eq_ok_iff s.agrees_complete).1 hread
  have hlength : (inputValues ctx.table (valuation s.complete) call.inputs).length =
      call.inputs.length := List.length_map _
  rw [← hlength] at haccepts houtputs
  refine ⟨hfind, haccepts, ?_, fun lc hlc t ht => ((hreadable lc hlc).2 t ht).2, houtputs, ?_⟩
  · rw [inputValues, List.forall₂_map_right_iff, List.forall₂_same]
    intro lc hlc
    refine ⟨Scalar.isLt _, ?_⟩
    intro v hv
    -- the inputs are the same integers under every valuation that agrees with the solution
    obtain ⟨-, hsame⟩ := (Solution.readInputs_eq_ok_iff hv).1 hread
    rw [← List.map_inj_left.1 hsame lc hlc, Scalar.ofNat_val]
  · rw [HintFunction.zeros, ← hlength, houtputs]

/-- The request for the wire of a call in the state `st` runs the function on the integers of
    `run`, as the contract has it, and ends as the function makes it. -/
structure Invocation.MadeIn (ctx : Context c) (st : SolveState c) (run : Invocation) :
    Prop where
  contract : run.Contract ctx st.solution
  invocations_eq : invocations (exec (solveWithHint ctx run.wire run.call) st).2.trace =
    invocations st.trace ++ [run]
  outcome_eq : (exec (solveWithHint ctx run.wire run.call) st).1 = (run.outcome st.solution).1
  solution_eq : (exec (solveWithHint ctx run.wire run.call) st).2.solution =
    (run.outcome st.solution).2

/-- A request runs at most one function. -/
theorem invocations_of_request {ctx : Context c} {w : WireId} {call : HintCall}
    {st st' : SolveState c} {r : Except (Stop SolverError) Unit}
    (hexec : exec (solveWithHint ctx w call) st = (r, st')) :
    invocations st'.trace = invocations st.trace ∨
      ∃ run : Invocation, run.wire = w ∧ run.call = call ∧ run.MadeIn ctx st := by
  cases requested_of_exec hexec with
  | absent hfault => exact .inl rfl
  | answered hlt hsome => exact .inl rfl
  | rejected hhandler => exact .inl rfl
  | called hlt hnone hhandler hends =>
    -- a function that is run is run on inputs that were read, and a refused call runs none
    rcases hends.invocations with ⟨run, hrun, hread, hinvoked, houtcome⟩ | ⟨-, hinvoked⟩
    · have hcontract := contract_of_read (w := w) hhandler hread
      rw [← hrun] at hcontract
      have hwire : run.wire = w := by rw [hrun]
      have hcall : run.call = call := by rw [hrun]
      obtain ⟨hresult, hsolution⟩ := Prod.mk.inj houtcome
      subst hwire hcall
      refine .inr ⟨run, rfl, rfl, hcontract, ?_, ?_, ?_⟩
      · rw [hexec]
        exact hinvoked
      · rw [hexec]
        exact hresult
      · rw [hexec]
        exact hsolution
    · exact .inl hinvoked

/-! ## The moment of a request -/

/-- The state follows by a request at a moment of `asks`, or without a run of a function. -/
inductive Advances (ctx : Context c) (asks : WireId → HintCall → SolveState c → Prop)
    (st : SolveState c) : SolveState c → Prop where
  | quiet {st' : SolveState c} (h : invocations st'.trace = invocations st.trace) :
      Advances ctx asks st st'
  | asked {w : WireId} {call : HintCall} {r : Except (Stop SolverError) Unit}
      {st' : SolveState c} (hasks : asks w call st)
      (hexec : exec (solveWithHint ctx w call) st = (r, st')) : Advances ctx asks st st'

section Advances

variable {ctx : Context c} {asks : WireId → HintCall → SolveState c → Prop} {st st' : SolveState c}

/-- A path may stop with the same kind of step as it goes on with. -/
theorem advances_of_path {α : Type} {r : Except (Stop SolverError) α}
    (h : Path (Advances ctx asks) (Advances ctx asks) st (r, st')) :
    ReflTransGen (Advances ctx asks) st st' := by
  cases r with
  | ok a => exact h
  | error stop =>
    obtain ⟨mid, hsteps, rfl | hlast⟩ := h
    · exact hsteps
    · exact hsteps.tail hlast

theorem path_request {w : WireId} {call : HintCall} (hasks : asks w call st) :
    Path (Advances ctx asks) (Advances ctx asks) st (exec (solveWithHint ctx w call) st) := by
  cases hexec : exec (solveWithHint ctx w call) st with
  | mk r st' =>
    cases r with
    | ok u => exact .single (.asked hasks hexec)
    | error stop => exact ⟨st, .refl, .inr (.asked hasks hexec)⟩

/-- Each run of a function goes back to the moment of a request. -/
theorem exists_moment {start : SolveState c} (hstart : invocations start.trace = [])
    (hsteps : ReflTransGen (Advances ctx asks) start st) {earlier later : List Invocation}
    {run : Invocation} (hruns : invocations st.trace = earlier ++ run :: later) :
    ∃ mid, asks run.wire run.call mid ∧ invocations mid.trace = earlier ∧ run.MadeIn ctx mid := by
  -- going back from the last step, until the step is reached that appended the run
  induction hsteps generalizing later with
  | refl =>
    rw [hstart] at hruns
    exact absurd hruns.symm (by simp)
  | @tail mid st' _ hstep ih =>
    cases hstep with
    | quiet hquiet => exact ih (hquiet ▸ hruns)
    | @asked w call r _ hasks hexec =>
      rcases invocations_of_request hexec with hquiet | ⟨run', rfl, rfl, hmade⟩
      · exact ih (hquiet ▸ hruns)
      · -- the run is the one of this request, or one of those before it
        have hinvoked := hmade.invocations_eq
        rw [hexec] at hinvoked
        rw [hinvoked] at hruns
        rcases List.eq_nil_or_concat later with rfl | ⟨later', last, rfl⟩
        · obtain ⟨rfl, hrun⟩ := List.append_inj' hruns rfl
          cases hrun
          exact ⟨mid, hasks, rfl, hmade⟩
        · rw [List.concat_eq_append, ← List.cons_append, ← List.append_assoc] at hruns
          exact ih (List.append_inj' hruns rfl).1

end Advances

namespace Circuit

/-- A run from `start` comes to ask for the wire `w` of the call, in the state `st`. -/
inductive Asks (s : Circuit c k) (functions : HintTable) (force : Bool) (start : SolveState c)
    (w : WireId) (call : HintCall) (st : SolveState c) : Prop where
  /-- A visit of a gate comes to a term on the wire. -/
  | visiting {i : Nat} {g : Gate k} {failures : Failures} {before : SolveState c} {t : Term}
      (hvisiting : s.Visiting functions force start i failures before)
      (hgate : s.gates[i]? = some g) (hreaches : g.Reaches (s.context functions) before t st)
      (hreal : t.isVirtual = false) (hwire : t.wire = w)
      (hunsolved : st.solution.isSolved w = .ok false)
      (hproducer : s.hints.producer? w = some call) : Asks s functions force start w call st
  /-- The call is still pending after the gates. -/
  | pending (hpending : s.Pending functions force start w call st) :
      Asks s functions force start w call st

/-- A run goes on by the requests that it comes to, and nothing else in it runs a hint
    function. -/
theorem advances_of_run {s : Circuit c k} {functions : HintTable} {force : Bool}
    {start st : SolveState c} {ended : Except (Stop SolverError) Failures}
    (hexec : exec (s.run functions force) start = (ended, st)) :
    ReflTransGen (Advances (s.context functions) (s.Asks functions force start)) start st := by
  apply advances_of_path (r := ended)
  rw [← hexec]
  -- a gate that solves its wire and a warning leave the runs as they are
  apply path_run
  · intro i g failures before hvisiting hgate
    apply path_gate
    · intro t mid hreaches
      apply path_resolve
      intro call hreal hunsolved hproducer
      exact path_request (.visiting hvisiting hgate hreaches hreal rfl hunsolved hproducer)
    · intro w mid _ x
      exact path_set fun _ _ => .quiet rfl
  · intro i detail
    exact follows_report fun _ => .quiet (invocations_push_of_none rfl)
  · intro w call mid hpending
    exact path_request (.pending hpending)

end Circuit

/-! ## Functions that check their shape -/

/-- The error says that a function got another number of integers than it declares. -/
def HintError.IsArity : HintError → Prop
  | inputArity .. => True
  | outputArity .. => True
  | undefined _ => False

/-- With these numbers of inputs and outputs the body does not complain about a number. -/
def HintBody.Fits (body : HintBody) (nInputs nOutputs : Nat) : Prop :=
  ∀ curve inputs outputs outs e, inputs.length = nInputs → outputs.length = nOutputs →
    body.run curve inputs outputs = (outs, .error e) → ¬e.IsArity

theorem HintBody.fits_fill (f : Curve → List Nat → Nat → Nat) (nInputs nOutputs : Nat) :
    (fill f).Fits nInputs nOutputs := by
  intro curve inputs outputs outs e _ _ hrun
  cases hrun

theorem HintBody.fits_single {f : Curve → List Nat → Except HintError Nat} {nInputs nOutputs : Nat}
    (hf : ∀ curve inputs e, f curve inputs = .error e → ¬e.IsArity) :
    (single f).Fits nInputs nOutputs := by
  intro curve inputs outputs outs e _ _ hrun
  unfold single at hrun
  simp only at hrun
  -- the function complains of its values alone, since it is run with its own shape
  cases hcompute : f curve inputs with
  | ok v =>
    rw [hcompute] at hrun
    cases hrun
  | error e' =>
    rw [hcompute] at hrun
    cases hrun
    exact hf curve inputs e hcompute

namespace HintFunction

/-- The functions of a fixed shape: the builtin ones, and those declared with a body that
    does not complain about its shape. -/
inductive Declared : HintFunction → Prop where
  | builtin {fn : HintFunction} (hmem : fn ∈ builtins) : Declared fn
  | nBits {n : Nat} {fn : HintFunction} (hbits : nBits n = .ok fn) : Declared fn
  | fixed {name : String} {nInputs nOutputs : Nat} {body : HintBody} {fn : HintFunction}
      (hfixed : fixed name nInputs nOutputs body = .ok fn) (hfits : body.Fits nInputs nOutputs) :
      Declared fn

theorem Declared.exists_shape {fn : HintFunction} (h : fn.Declared) :
    ∃ name nInputs nOutputs body, fn = ofShape name nInputs nOutputs body ∧
      body.Fits nInputs nOutputs := by
  cases h with
  | builtin hmem =>
    unfold builtins at hmem
    simp only [List.mem_cons, List.not_mem_nil, or_false] at hmem
    rcases hmem with rfl | rfl | rfl | rfl
    · exact ⟨_, _, _, _, rfl, HintBody.fits_single nofun⟩
    · exact ⟨_, _, _, _, rfl, HintBody.fits_single nofun⟩
    · exact ⟨_, _, _, _, rfl, HintBody.fits_single nofun⟩
    · refine ⟨_, _, _, _, rfl, HintBody.fits_single ?_⟩
      intro curve inputs e hdiv
      -- a quotient fails by zero only
      simp only at hdiv
      split at hdiv
      · cases hdiv
        exact not_false
      · cases hdiv
  | @nBits n _ hbits =>
    unfold HintFunction.nBits at hbits
    split at hbits
    · cases hbits
    · cases hbits
      exact ⟨_, _, _, _, rfl, HintBody.fits_fill _ _ _⟩
  | @fixed name nInputs nOutputs body _ hfixed hfits =>
    unfold HintFunction.fixed at hfixed
    split at hfixed
    · cases hfixed
    · cases hfixed
      exact ⟨name, nInputs, nOutputs, body, rfl, hfits⟩

/-- A function of a fixed shape that is run by the contract does not complain about its
    shape. -/
theorem Declared.not_isArity {fn : HintFunction} (h : fn.Declared) {curve : Curve}
    {inputs outputs outs : List Nat} {e : HintError}
    (haccepts : fn.arity.accepts inputs.length = true)
    (houtputs : outputs.length = fn.nOutputs inputs.length)
    (hcall : fn.call curve inputs outputs = (outs, .error e)) : ¬e.IsArity := by
  obtain ⟨name, nInputs, nOutputs, body, rfl, hfits⟩ := h.exists_shape
  have hinputs : inputs.length = nInputs := (beq_iff_eq.1 haccepts).symm
  change outputs.length = nOutputs at houtputs
  have hrun : (body.shaped nInputs nOutputs).run curve inputs outputs = (outs, .error e) := hcall
  rw [HintBody.shaped_run hinputs houtputs] at hrun
  exact hfits curve inputs outputs outs e hinputs houtputs hrun

end HintFunction

/-! ## Solves -/

/-- If the function of a call failed, then it was run last, and this is its error. -/
def SolverError.Blames (e : SolverError) (st : SolveState c) : Prop :=
  ∀ name source, e = .hintFailed name source → ∃ earlier run outs,
    invocations st.trace = earlier ++ [run] ∧ run.function.name = name ∧
      run.function.call c run.inputs run.outputs = (outs, .error source)

theorem stops_request (ctx : Context c) (w : WireId) (call : HintCall) :
    Stops SolverError.Blames (solveWithHint ctx w call) := by
  rintro st e st' hexec name source rfl
  -- neither the handler nor an input has this error, so the function was run
  cases requested_of_exec hexec with
  | rejected hhandler => cases HintTable.handler_eq_error_iff.1 hhandler
  | called hlt hnone hhandler hends =>
    cases hends with
    | refused hread =>
      obtain ⟨u, habs⟩ := Solution.readInputs_eq_unresolved (congrArg Prod.fst hread)
      cases habs
    | failed hread hcall => exact ⟨_, _, _, invocations_afterRun .., rfl, hcall⟩

namespace Circuit

variable {s : Circuit c k} {assignment : List (Scalar c)} {registry : Registry}
  {options : SolverOptions}

theorem blames_of_run {functions : HintTable} {force : Bool} {start st : SolveState c}
    {e : SolverError} (hexec : exec (s.run functions force) start = (.error (.error e), st)) :
    e.Blames st :=
  stops_run (stops_request _) nofun nofun start e st hexec

/-- A solve is not refused because of a function that failed. -/
theorem not_refuses_hintFailed {name : String} {e : HintError} :
    ¬s.Refuses assignment registry options (.error (.hintFailed name e)) := by
  intro h
  cases h with
  | functions htable =>
    obtain ⟨id, name', habs⟩ := HintTable.eq_duplicateHint_of_ofList htable
    cases habs

/-- A solve comes to ask for the wire of a call in the state `st`, with the runs `earlier`
    behind it, and so the function of the call is run. -/
structure Invokes (s : Circuit c k) (assignment : List (Scalar c)) (registry : Registry)
    (options : SolverOptions) (earlier : List Invocation) (run : Invocation)
    (functions : HintTable) (start st : SolveState c) : Prop where
  starts : s.Starts assignment registry options functions start
  asks : s.Asks functions options.force start run.wire run.call st
  invocations_eq : invocations st.trace = earlier
  made : run.MadeIn (s.context functions) st

/-- The contract of hint functions is kept all through the solve. -/
structure KeepsContract (s : Circuit c k) (assignment : List (Scalar c)) (registry : Registry)
    (options : SolverOptions) : Prop where
  /-- It is kept at every run of a function, at the moment of the run. -/
  kept : ∀ earlier run later,
    invocations (s.solve assignment registry options).trace = earlier ++ run :: later →
    ∃ functions start st, s.Invokes assignment registry options earlier run functions start st
  /-- A solve that fails in a function has run it last.  The function does not complain about
      its shape if it is one of a fixed shape. -/
  failed : ∀ name e,
    (s.solve assignment registry options).result = .error (.error (.hintFailed name e)) →
    ∃ earlier run outs,
      invocations (s.solve assignment registry options).trace = earlier ++ [run] ∧
      run.function.name = name ∧
      run.function.call c run.inputs run.outputs = (outs, .error e) ∧
      (run.function.Declared → ¬e.IsArity)

theorem exists_invokes {earlier later : List Invocation} {run : Invocation}
    (hruns : invocations (s.solve assignment registry options).trace = earlier ++ run :: later) :
    ∃ functions start st,
      s.Invokes assignment registry options earlier run functions start st := by
  rcases s.solve_cases assignment registry options with
    ⟨stop, -, hsolve⟩ | ⟨functions, start, hstarts, hsolve⟩
  · -- a solve that is refused runs no function
    have hnone : invocations (s.solve assignment registry options).trace = [] := by
      rw [hsolve]
      rfl
    rw [hnone] at hruns
    exact absurd hruns.symm (by simp)
  · cases hexec : exec (s.run functions options.force) start with
    | mk ended st =>
      rw [hsolve, invocations_solveFrom hexec] at hruns
      obtain ⟨mid, hasks, hbefore, hmade⟩ :=
        exists_moment hstarts.invocations_eq (advances_of_run hexec) hruns
      exact ⟨functions, start, mid, hstarts, hasks, hbefore, hmade⟩

/-- The function that failed is the last one that was run. -/
theorem exists_failed {name : String} {e : HintError}
    (h : (s.solve assignment registry options).result = .error (.error (.hintFailed name e))) :
    ∃ earlier run outs,
      invocations (s.solve assignment registry options).trace = earlier ++ [run] ∧
      run.function.name = name ∧ run.function.call c run.inputs run.outputs = (outs, .error e) := by
  rcases solve_eq_error h with hrefuses | ⟨functions, start, st, hstarts, hexec⟩
  · exact absurd hrefuses not_refuses_hintFailed
  · rw [hstarts.solve_eq, invocations_solveFrom hexec]
    exact blames_of_run hexec name e rfl

end Circuit

open Circuit in
/-- At every run of a hint function, also one that then fails, the function gets a number of
    inputs that it accepts, each the representative of its sum over the wires that are solved
    at that moment, and a zero for each of the outputs that it declares. -/
theorem solve_keeps_contract (s : Circuit c k) (assignment : List (Scalar c))
    (registry : Registry) (options : SolverOptions) :
    s.KeepsContract assignment registry options := by
  constructor
  case kept => exact fun earlier run later hruns => exists_invokes hruns
  case failed =>
    intro name e hresult
    obtain ⟨earlier, run, outs, hruns, hname, hcall⟩ := exists_failed hresult
    refine ⟨earlier, run, outs, hruns, hname, hcall, ?_⟩
    intro hdeclared
    -- the run was made at some moment, where the contract says what its outputs are
    obtain ⟨functions, start, st, hinvokes⟩ := exists_invokes hruns
    have hcontract := hinvokes.made.contract
    have houtputs : run.outputs.length = run.function.nOutputs run.inputs.length := by
      rw [hcontract.outputs_eq, List.length_replicate, hcontract.nOutputs_eq]
    exact hdeclared.not_isArity hcontract.accepts houtputs hcall

/-- The sample, with twice the secret input as the input of its call. -/
def Circuit.doubling : Circuit .bn254 .rankOne :=
  let x : Term := ⟨.one, ⟨2⟩, .secret⟩
  { sample with hints := ⟨[(⟨3⟩, ⟨⟨7⟩, [⟨[x, x]⟩], [⟨3⟩]⟩)]⟩ }

/-- Twice the greatest element is handed over as the element below it. -/
example : (invocations (Circuit.doubling.solve [0, -1] .sample SolverOptions.standard).trace).map
    Invocation.inputs = [[Curve.bn254.modulus - 2]] := by decide +kernel

end CircuitWitness
