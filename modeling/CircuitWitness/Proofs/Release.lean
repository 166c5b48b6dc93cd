import CircuitWitness.Proofs.Solver.Solve

/-! # Borrowed integers come back

    A hint call borrows the integers of its inputs and outputs before it reads its
    first input.  From there on it can end in many ways: an input is unset or waits
    for a wire, the function fails, an output wire cannot be solved, or all goes
    well.  On every way out as many integers go back as were borrowed.  A pool with
    `a` integers that lends `n` and takes `n` back has `max a n` after it, as far as
    there is room, and so the pool of a solve has grown to the largest of its calls.
-/

namespace CircuitWitness

open Solving Relation

variable {c : Curve} {k : Kind}

/-! ## The integers that a trace says were borrowed -/

/-- How many integers a call borrowed, if the event reports that. -/
def Event.borrowed? : Event → Option Nat
  | borrowed n => some n
  | _ => none

/-- What the calls of a trace borrowed, one after another: every call that passed its
    checks, also one that failed after that. -/
def borrowings (trace : Array Event) : List Nat := trace.toList.filterMap Event.borrowed?

@[simp] theorem borrowings_push_borrowed (trace : Array Event) (n : Nat) :
    borrowings (trace.push (.borrowed n)) = borrowings trace ++ [n] := by
  simp [borrowings, Event.borrowed?]

theorem borrowings_push_of_none {trace : Array Event} {e : Event} (h : e.borrowed? = none) :
    borrowings (trace.push e) = borrowings trace := by
  simp [borrowings, h]

/-- The largest of some sizes, zero if there is none. -/
def largest (sizes : List Nat) : Nat := sizes.foldr max 0

theorem largest_append (sizes : List Nat) (n : Nat) :
    largest (sizes ++ [n]) = max (largest sizes) n := by
  induction sizes with
  | nil => simp [largest]
  | cons m rest ih =>
    show max m (largest (rest ++ [n])) = max (max m (largest rest)) n
    rw [ih, Nat.max_assoc]

/-! ## One call -/

/-- Lending integers and taking as many back leaves the larger of what was there and what
    was lent, as far as there is room. -/
theorem ScratchPool.available_giveBack_take {p : ScratchPool} (h : p.available ≤ p.capacity)
    {n : Nat} {values : List Nat} (hlen : values.length = n) :
    ((p.take n).2.giveBack values).available = min p.capacity (max p.available n) := by
  have hroom : (p.take n).2.available ≤ (p.take n).2.capacity := by
    rw [available_take, capacity_take]
    omega
  rw [available_giveBack hroom, available_take, capacity_take, hlen]
  omega

namespace Solution

theorem length_readInputs_le {table : CoefficientTable c} {s : Solution c} {id : HintId}
    (inputs : List LinearCombination) :
    (s.readInputs table id inputs).2.length ≤ inputs.length := by
  induction inputs with
  | nil => exact Nat.le_refl 0
  | cons lc rest ih =>
    rw [readInputs]
    cases s.readInput table id lc with
    | error stop => exact Nat.zero_le _
    | ok x => exact Nat.succ_le_succ ih

theorem length_of_readInputs {table : CoefficientTable c} {s : Solution c} {id : HintId}
    {inputs : List LinearCombination} {xs : List Nat}
    (h : s.readInputs table id inputs = (.ok (), xs)) : xs.length = inputs.length := by
  obtain ⟨-, rfl⟩ := (readInputs_eq_ok_iff s.agrees_complete).1 h
  exact List.length_map _

end Solution

/-- From one state to the other `n` integers were borrowed, and `n` were given back. -/
structure Returned (n : Nat) (st st' : SolveState c) : Prop where
  borrowings_eq : borrowings st'.trace = borrowings st.trace ++ [n]
  pool_eq : ∃ values : List Nat, values.length = n ∧
    st'.pool = (st.pool.take n).2.giveBack values

/-- How many integers the call of a run borrowed. -/
def Invocation.nIntegers (run : Invocation) : Nat := run.function.nIntegers run.call

section Call

variable {ctx : Context c} {w : WireId} {call : HintCall} {fn : HintFunction}
  {st st' : SolveState c} {r : Except (Stop SolverError) Unit}

/-- Where the inputs could be read, they and the outputs fill the buffer. -/
theorem returned_afterRun {xs outs : List Nat} {solution : Solution c}
    {result : Except HintError Unit}
    (hread : st.solution.readInputs ctx.table call.id call.inputs = (.ok (), xs))
    (hcall : fn.call c xs (fn.zeros call) = (outs, result)) :
    Returned (fn.nIntegers call) st
      (st.afterRun ⟨fn, w, call, xs, fn.zeros call⟩ outs solution) := by
  -- as many integers are given back as were borrowed, inputs and outputs together
  have hins := Solution.length_of_readInputs hread
  have houts := fn.body.length_run c xs (fn.zeros call)
  rw [HintFunction.call] at hcall
  rw [hcall, HintFunction.zeros, List.length_replicate] at houts
  refine ⟨?_, xs ++ outs, ?_, rfl⟩
  · unfold SolveState.afterRun
    rw [borrowings_push_of_none rfl, borrowings_push_borrowed]
  · rw [List.length_append, hins, houts, HintFunction.nIntegers]

/-- However a call ends, it gives back what it borrowed. -/
theorem CallEnds.returned (hends : CallEnds ctx w call fn st r st') :
    Returned (fn.nIntegers call) st st' := by
  cases hends with
  | failed hread hcall => exact returned_afterRun hread hcall
  | broke hread hcall hset => exact returned_afterRun hread hcall
  | ran hread hcall hset => exact returned_afterRun hread hcall
  | @refused stop xs hread =>
    -- the inputs that were read are followed by the zeros that were not overwritten
    have hle : (st.solution.readInputs ctx.table call.id call.inputs).2.length ≤
        call.inputs.length := Solution.length_readInputs_le call.inputs
    rw [hread] at hle
    have hxs : xs.length ≤ call.inputs.length := hle
    refine ⟨borrowings_push_borrowed _ _, _, ?_, rfl⟩
    rw [List.length_append, List.length_drop, List.length_replicate, HintFunction.nIntegers]
    omega

/-- A wire that is unsolved makes its call borrow, however the call ends after that, if
    there is a function that takes the call. -/
theorem borrowings_solveWithHint (hsolved : st.solution.isSolved w = .ok false)
    (hhandler : ctx.functions.handler w call = .ok fn) :
    borrowings (exec (solveWithHint ctx w call) st).2.trace =
      borrowings st.trace ++ [fn.nIntegers call] := by
  cases hexec : exec (solveWithHint ctx w call) st with
  | mk r st' =>
    -- the wire is unsolved and a function takes the call, so that it is made
    cases requested_of_exec hexec with
    | absent hfault =>
      rw [hsolved] at hfault
      cases hfault
    | answered hlt hsome =>
      obtain ⟨-, hnone⟩ := Solution.isSolved_eq_ok_iff.1 hsolved
      rw [hsome] at hnone
      cases hnone
    | rejected hrejected =>
      rw [hhandler] at hrejected
      cases hrejected
    | called hlt hnone hhandler' hends =>
      rw [hhandler] at hhandler'
      cases hhandler'
      exact hends.returned.borrowings_eq

end Call

/-! ## The account of a solve -/

/-- A function takes a call of the context, and the call borrows this many integers. -/
def Context.Grants (ctx : Context c) (n : Nat) : Prop :=
  ∃ w call fn, (w, call) ∈ ctx.hints.entries ∧ ctx.functions.handler w call = .ok fn ∧
    n = fn.nIntegers call

/-- The pool and the trace of a solve that started with `available` integers.  All calls
    that borrowed went on to run their functions, but for the last ones, which borrowed
    `refused`. -/
structure Settled (ctx : Context c) (capacity available : Nat) (refused : List Nat)
    (st : SolveState c) : Prop where
  capacity_eq : st.pool.capacity = capacity
  available_eq : st.pool.available =
    min capacity (max available (largest (borrowings st.trace)))
  granted : ∀ n ∈ borrowings st.trace, ctx.Grants n
  borrowings_eq : borrowings st.trace =
    (invocations st.trace).map Invocation.nIntegers ++ refused

/-- What a solve does to its state, as far as it matters to the account. -/
inductive Exchange (ctx : Context c) (st : SolveState c) : SolveState c → Prop where
  | ran {st' : SolveState c} (h : HintRan ctx st st') : Exchange ctx st st'
  | solved (solution : Solution c) : Exchange ctx st { st with solution }
  | warned (i : Nat) (detail : String) :
      Exchange ctx st { st with trace := st.trace.push (.unsatisfied i detail) }

section Account

variable {ctx : Context c} {capacity available : Nat} {st st' : SolveState c}

/-- A call settles its account.  If an input stops it, it is refused, and that stops the
    solve. -/
theorem Settled.call (h : Settled ctx capacity available [] st) {w : WireId} {call : HintCall}
    {fn : HintFunction} {r : Except (Stop SolverError) Unit} (hasked : Asked ctx st w call fn)
    (hends : CallEnds ctx w call fn st r st') :
    ∃ refused, Settled ctx capacity available refused st' ∧ refused.length ≤ 1 ∧
      (refused = [] ∨ ∃ stop, r = .error stop) := by
  obtain ⟨hborrowed, values, hlen, hpool⟩ := hends.returned
  have hgranted : ∀ n ∈ borrowings st'.trace, ctx.Grants n := by
    rw [hborrowed]
    intro n hn
    rcases List.mem_append.1 hn with hn | hn
    · exact h.granted n hn
    · rw [List.mem_singleton] at hn
      exact ⟨w, call, fn, hasked.produces, hasked.handler, hn⟩
  have hcapacity : st'.pool.capacity = capacity := by
    rw [hpool, ScratchPool.capacity_giveBack, ScratchPool.capacity_take, h.capacity_eq]
  have havailable : st'.pool.available =
      min capacity (max available (largest (borrowings st'.trace))) := by
    -- borrowing `n` after having grown to `m` is growing to the larger of the two
    have hle : st.pool.available ≤ st.pool.capacity := by
      rw [h.available_eq, h.capacity_eq]
      omega
    rw [hpool, ScratchPool.available_giveBack_take hle hlen, h.available_eq, h.capacity_eq,
      hborrowed, largest_append]
    omega
  have hbefore := h.borrowings_eq
  rw [List.append_nil] at hbefore
  rcases hends.invocations with ⟨run, hrun, -, hinvoked, -⟩ | ⟨hstop, hinvoked⟩
  · refine ⟨[], ⟨hcapacity, havailable, hgranted, ?_⟩, Nat.zero_le 1, .inl rfl⟩
    have hn : run.nIntegers = fn.nIntegers call := by rw [hrun]; rfl
    rw [hborrowed, hinvoked, hbefore, List.map_append, List.append_nil, List.map_singleton, hn]
  · refine ⟨[fn.nIntegers call], ⟨hcapacity, havailable, hgranted, ?_⟩, Nat.le_refl 1, .inr hstop⟩
    rw [hborrowed, hinvoked, hbefore]

/-- Nothing that goes on leaves a call refused. -/
theorem Settled.exchange (h : Settled ctx capacity available [] st)
    (hexchange : Exchange ctx st st') : Settled ctx capacity available [] st' := by
  cases hexchange with
  | ran hran =>
    obtain ⟨w, call, fn, hasked, hends⟩ := hran
    obtain ⟨refused, hsettled, -, rfl | ⟨stop, habs⟩⟩ := h.call hasked hends
    · exact hsettled
    · cases habs
  | solved solution => exact ⟨h.capacity_eq, h.available_eq, h.granted, h.borrowings_eq⟩
  | warned i detail =>
    -- a warning is not listed as a borrowing or as a run
    have hborrowed : borrowings (st.trace.push (.unsatisfied i detail)) = borrowings st.trace :=
      borrowings_push_of_none rfl
    have hinvoked : invocations (st.trace.push (.unsatisfied i detail)) = invocations st.trace :=
      invocations_push_of_none rfl
    exact ⟨h.capacity_eq, hborrowed ▸ h.available_eq, hborrowed ▸ h.granted,
      hborrowed ▸ hinvoked ▸ h.borrowings_eq⟩

theorem Settled.exchanges (h : Settled ctx capacity available [] st)
    (hexchanges : ReflTransGen (Exchange ctx) st st') : Settled ctx capacity available [] st' :=
  preserved (I := Settled ctx capacity available []) (fun _ _ hexchange h => h.exchange hexchange)
    hexchanges h

end Account

theorem exchanges_of_runs {α : Type} {ctx : Context c} {x : Solving c α}
    (h : Follows (HintRan ctx) (HintStopped ctx) x) :
    Follows (Exchange ctx) (HintStopped ctx) x :=
  h.mono (fun _ _ => .ran) (fun _ _ h => h)

namespace Circuit

variable {s : Circuit c k} {registry : Registry} {options : SolverOptions}

theorem exchanges_run (functions : HintTable) (force : Bool) :
    Follows (Exchange (s.context functions)) (HintStopped (s.context functions))
      (s.run functions force) := by
  apply follows_run
  · exact follows_gate (fun t => exchanges_of_runs (follows_resolve _ t))
      fun _ _ => follows_set fun _ solution _ => .solved solution
  · intro i detail
    exact follows_report fun _ => .warned i detail
  · intro w call hmem
    exact exchanges_of_runs (follows_solveWithHint hmem)

/-- A run that starts with a settled account leaves one, however it ends. -/
theorem settled_of_run {functions : HintTable} {force : Bool} {capacity available : Nat}
    {start st : SolveState c} {ended : Except (Stop SolverError) Failures}
    (hstart : Settled (s.context functions) capacity available [] start)
    (hexec : exec (s.run functions force) start = (ended, st)) :
    ∃ refused, Settled (s.context functions) capacity available refused st ∧
      refused.length ≤ 1 ∧ (refused = [] ∨ ∃ stop, ended = .error stop) := by
  cases ended with
  | ok failures =>
    have hpath := (exchanges_run functions force).ok hexec
    exact ⟨[], hstart.exchanges hpath, Nat.zero_le 1, .inl rfl⟩
  | error stop =>
    -- what went before the last step is settled, and the last one may have been refused
    obtain ⟨mid, hpath, hlast⟩ := (exchanges_run functions force).error hexec
    have hmid := hstart.exchanges hpath
    rcases hlast with rfl | ⟨w, call, fn, stop', hasked, hends⟩
    · exact ⟨[], hmid, Nat.zero_le 1, .inl rfl⟩
    · obtain ⟨refused, hsettled, hone, -⟩ := hmid.call hasked hends
      exact ⟨refused, hsettled, hone, .inr ⟨stop, rfl⟩⟩

/-! ## Solves -/

/-- A solve of the circuit with this registry has given back what it borrowed. -/
structure GivesBack (s : Circuit c k) (registry : Registry) (options : SolverOptions)
    (r : Report c) : Prop where
  capacity_eq : r.pool.capacity = registry.pool.capacity
  available_eq : r.pool.available = min registry.pool.capacity
    (max registry.pool.available (largest (borrowings r.trace)))
  /-- Only calls that a function takes have borrowed. -/
  granted : ∀ n ∈ borrowings r.trace, ∃ functions, hintTable registry options = .ok functions ∧
    (s.context functions).Grants n
  /-- The calls that borrowed are those that ran their functions, and at most one more,
      which stopped the solve. -/
  borrowings_eq : ∃ refused, borrowings r.trace =
      (invocations r.trace).map Invocation.nIntegers ++ refused ∧
    refused.length ≤ 1 ∧ (refused = [] ∨ ∃ stop, r.result = .error stop)
  /-- In any state every call borrows that is made for an unsolved wire and that a function
      takes, whether or not it fails after that. -/
  borrows : ∀ functions w call fn (st : SolveState c), st.solution.isSolved w = .ok false →
    functions.handler w call = .ok fn →
    borrowings (exec (solveWithHint (s.context functions) w call) st).2.trace =
      borrowings st.trace ++ [fn.nIntegers call]

theorem borrowings_call (functions : HintTable) (w : WireId) (call : HintCall) (fn : HintFunction)
    (st : SolveState c) (hsolved : st.solution.isSolved w = .ok false)
    (hhandler : functions.handler w call = .ok fn) :
    borrowings (exec (solveWithHint (s.context functions) w call) st).2.trace =
      borrowings st.trace ++ [fn.nIntegers call] := by
  have htakes : (s.context functions).functions.handler w call = .ok fn := hhandler
  exact borrowings_solveWithHint hsolved htakes

/-- The report of a solve whose run has a settled account. -/
theorem givesBack_of_settled {functions : HintTable} {start st : SolveState c}
    {ended : Except (Stop SolverError) Failures} {refused : List Nat}
    (hfunctions : hintTable registry options = .ok functions)
    (hexec : exec (s.run functions options.force) start = (ended, st))
    (hst : Settled (s.context functions) registry.pool.capacity registry.pool.available
      refused st) (hone : refused.length ≤ 1)
    (hstop : refused = [] ∨ ∃ stop, ended = .error stop) :
    s.GivesBack registry options (s.solveFrom functions options start) := by
  have hborrowed : borrowings (s.solveFrom functions options start).trace =
      borrowings st.trace := filterMap_solveFrom (fun _ => rfl) (fun _ => rfl) hexec
  have hinvoked := invocations_solveFrom hexec
  have hpool := pool_solveFrom hexec
  refine ⟨?_, ?_, ?_, ⟨refused, ?_, hone, ?_⟩, borrowings_call⟩
  · rw [hpool, hst.capacity_eq]
  · rw [hpool, hborrowed, hst.available_eq]
  · intro n hn
    rw [hborrowed] at hn
    exact ⟨functions, hfunctions, hst.granted n hn⟩
  · rw [hborrowed, hinvoked, hst.borrowings_eq]
  · refine hstop.imp_right ?_
    intro ⟨stop, hended⟩
    -- a run that stopped has no witness
    cases hresult : (s.solveFrom functions options start).result with
    | error stop => exact ⟨stop, rfl⟩
    | ok w =>
      have hreports := reports_of_run hexec
      rw [hresult] at hreports
      obtain ⟨failures, hok, -⟩ := hreports.of_ok
      rw [hended] at hok
      cases hok

end Circuit

open Circuit in
/-- However a solve ends, its pool has as many integers as before, or as many as the largest
    of its calls borrowed, as far as there is room. -/
theorem solve_gives_back (s : Circuit c k) (assignment : List (Scalar c)) {registry : Registry}
    (h : registry.pool.available ≤ registry.pool.capacity) (options : SolverOptions) :
    s.GivesBack registry options (s.solve assignment registry options) := by
  rcases s.solve_cases assignment registry options with
    ⟨stop, -, hsolve⟩ | ⟨functions, start, hstarts, hsolve⟩
  · -- nothing was borrowed
    rw [hsolve]
    refine ⟨rfl, ?_, nofun, ⟨[], rfl, Nat.zero_le 1, .inl rfl⟩, borrowings_call⟩
    show registry.pool.available = min _ (max registry.pool.available 0)
    omega
  · rw [hsolve]
    have hstart : Settled (s.context functions) registry.pool.capacity registry.pool.available []
        start := by
      have hnone : borrowings start.trace = [] := by
        rw [hstarts.trace_eq]
        rfl
      refine ⟨by rw [hstarts.pool_eq], ?_, ?_, ?_⟩
      · rw [hstarts.pool_eq, hnone]
        show registry.pool.available = min _ (max registry.pool.available 0)
        omega
      · rw [hnone]
        nofun
      · rw [hnone, hstarts.invocations_eq]
        rfl
    cases hexec : exec (s.run functions options.force) start with
    | mk ended st =>
      obtain ⟨refused, hst, hone, hstop⟩ := settled_of_run hstart hexec
      exact givesBack_of_settled hstarts.functions_eq hexec hst hone hstop

/-- The sample with a second call, for the wires five and six, that waits for the wire
    seven.  Nothing solves that wire. -/
def Circuit.starved : Circuit .bn254 .rankOne :=
  let call : HintCall :=
    ⟨⟨8⟩, [⟨[⟨.one, ⟨2⟩, .secret⟩]⟩, ⟨[⟨.one, ⟨7⟩, .internal⟩]⟩], [⟨5⟩, ⟨6⟩]⟩
  { sample with
    layout := ⟨2, 1, 5⟩
    hints := ⟨[(⟨3⟩, sampleCall), (⟨5⟩, call), (⟨6⟩, call)]⟩ }

/-- The successor and a function from two integers to two, with a pool that has one integer
    and room for two more. -/
def Registry.small : Registry :=
  .ofFunctions [.successor, { HintFunction.successor with
    id := ⟨8⟩
    arity := .fixed 2
    nOutputs _ := 2 }] ⟨[5], 3⟩

/-- The first call borrows two integers and runs.  The second borrows four, stops the solve at
    its second input, and still the pool is full. -/
theorem solve_gives_back_sample :
    let r := Circuit.starved.solve [9, 2] .small SolverOptions.standard.withoutOutput
    Registry.small.pool.available ≤ Registry.small.pool.capacity ∧
      r.result.toOption.isNone ∧ (invocations r.trace).map Invocation.nIntegers = [2] ∧
      borrowings r.trace = [2, 4] ∧ r.pool.available = 3 := by
  intro r
  have hfits : Registry.small.pool.available ≤ Registry.small.pool.capacity := by decide
  have hgives : Circuit.starved.GivesBack .small SolverOptions.standard.withoutOutput r :=
    solve_gives_back Circuit.starved [9, 2] hfits SolverOptions.standard.withoutOutput
  have hborrowed : borrowings r.trace = [2, 4] := by decide +kernel
  refine ⟨hfits, by decide +kernel, by decide +kernel, hborrowed, ?_⟩
  rw [hgives.available_eq, hborrowed]
  rfl

end CircuitWitness
