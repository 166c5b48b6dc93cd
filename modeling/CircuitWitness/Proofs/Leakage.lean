import CircuitWitness.Proofs.Solver.Parallel
import CircuitWitness.Proofs.Solver.Solve

/-! # The scratch pool does not show

    The integers that a pool keeps are left as their last borrower left them.  A
    borrower sees zeros whatever the pool keeps, so two solves that start with
    different pools execute in parallel: in states that differ in nothing but the
    pool.  What a solve reports, its calls and its log lines say nothing about
    earlier solves that shared the pool.
-/

namespace CircuitWitness

open Solving

variable {c : Curve} {k : Kind} {α β : Type}

/-- The states have the same solution and the same trace. -/
structure SolveState.SameButPool (st st' : SolveState c) : Prop where
  solution_eq : st.solution = st'.solution
  trace_eq : st.trace = st'.trace

/-- The step does the same whatever the pool keeps. -/
def PoolBlind (x : Solving c α) : Prop := Parallel SolveState.SameButPool Eq Eq x x

/-! ## Steps -/

theorem poolBlind_pure (a : α) : PoolBlind (pure a : Solving c α) := parallel_pure rfl

theorem poolBlind_fail (e : SolverError) : PoolBlind (fail e : Solving c α) := parallel_fail rfl

theorem poolBlind_read (f : Solution c → Except Fault α) : PoolBlind (read f) :=
  parallel_read (fun _ _ hst => hst.solution_eq) (fun _ => rfl) f

theorem poolBlind_report (e : Event) : PoolBlind (report e : Solving c Unit) := by
  apply parallel_report
  intro st st' hst
  exact ⟨hst.solution_eq, by rw [hst.trace_eq]⟩

theorem poolBlind_bind {x : Solving c α} {f : α → Solving c β} (hx : PoolBlind x)
    (hf : ∀ a, PoolBlind (f a)) : PoolBlind (x >>= f) := parallel_bind_eq hx hf

theorem poolBlind_set (w : WireId) (x : Scalar c) : PoolBlind (set w x) := by
  intro st st' hst
  cases hset : st.solution.set w x with
  | ok solution =>
    rw [exec_set_of_ok hset, exec_set_of_ok (hst.solution_eq ▸ hset)]
    exact .ok rfl ⟨rfl, hst.trace_eq⟩
  | error f =>
    rw [exec_set_of_error hset, exec_set_of_error (hst.solution_eq ▸ hset)]
    exact .stopped rfl hst

/-- A call hands zeros to its function, so all that it does is independent of what the
    pool keeps. -/
theorem poolBlind_runCall (ctx : Context c) (w : WireId) (call : HintCall) (h : HintFunction) :
    PoolBlind (runCall ctx w call h) := by
  intro ⟨solution, pool, trace⟩ ⟨_, pool', _⟩ ⟨hsolution, htrace⟩
  cases hsolution
  cases htrace
  show Alike _ _ _ (runCall ctx w call h ⟨solution, pool, trace⟩)
    (runCall ctx w call h ⟨solution, pool', trace⟩)
  -- what a call takes from the pool is zeroed, whatever the pool holds
  simp only [runCall, ScratchPool.take_fst]
  cases solution.readInputs ctx.table call.id call.inputs with
  | mk r inputs =>
    cases r with
    | error stop => exact .stopped rfl ⟨rfl, rfl⟩
    | ok u =>
      simp only
      cases (h.call c inputs _).swap with
      | mk r outputs =>
        cases r with
        | error e => exact .stopped rfl ⟨rfl, rfl⟩
        | ok u =>
          simp only
          cases solution.setAll (call.wires.zip (outputs.map Scalar.ofNat)) with
          | mk r solution' =>
            cases r with
            | error f => exact .stopped rfl ⟨rfl, rfl⟩
            | ok u => exact .ok rfl ⟨rfl, rfl⟩

theorem poolBlind_solveWithHint (ctx : Context c) (w : WireId) (call : HintCall) :
    PoolBlind (solveWithHint ctx w call) := by
  unfold solveWithHint
  apply poolBlind_bind (poolBlind_read _)
  intro solved
  split
  · exact poolBlind_pure ()
  · cases ctx.functions.handler w call with
    | error e => exact poolBlind_fail e
    | ok h => exact poolBlind_runCall ctx w call h

theorem poolBlind_resolve (ctx : Context c) (t : Term) : PoolBlind (resolve ctx t) := by
  unfold resolve
  split
  · exact poolBlind_pure ()
  · apply poolBlind_bind (poolBlind_read _)
    intro solved
    split
    · exact poolBlind_pure ()
    · cases ctx.hints.producer? t.wire with
      | none => exact poolBlind_pure ()
      | some call => exact poolBlind_solveWithHint ctx t.wire call

/-! ## Gates -/

theorem poolBlind_seekUnknown {π : Type} (ctx : Context c) (term : π → Term)
    (clash : π → π → Bool) (found : Option π) (places : List π) :
    PoolBlind (seekUnknown ctx term clash found places) := by
  induction places generalizing found with
  | nil => exact poolBlind_pure _
  | cons p rest ih =>
    rw [seekUnknown_cons]
    apply poolBlind_bind (poolBlind_resolve ctx (term p))
    intro _
    apply poolBlind_bind (poolBlind_read _)
    -- a place is judged by the solution alone
    intro known
    cases known with
    | true => exact ih found
    | false =>
      cases found with
      | none => exact ih (some p)
      | some q =>
        show PoolBlind (if clash q p then _ else _)
        split
        · exact poolBlind_pure _
        · exact ih (some p)

theorem poolBlind_settle (w : WireId) (demand : Option (Scalar c × Outcome)) :
    PoolBlind (settle w demand) := by
  cases demand with
  | none => exact poolBlind_pure _
  | some demand => exact poolBlind_bind (poolBlind_set w _) fun _ => poolBlind_pure _

theorem poolBlind_gate (ctx : Context c) (g : Gate k) : PoolBlind (g.solve ctx) := by
  cases g with
  | rankOne g =>
    apply poolBlind_bind (poolBlind_read _)
    intro _
    apply poolBlind_bind (poolBlind_seekUnknown ctx _ _ _ _)
    intro unknown
    -- past the search, the gate reads and sets without the pool
    cases unknown with
    | several => exact poolBlind_pure _
    | none => exact poolBlind_bind (poolBlind_read _) fun _ => poolBlind_pure _
    | one p => exact poolBlind_bind (poolBlind_read _) fun _ => poolBlind_settle _ _
  | sparse g =>
    apply poolBlind_bind (poolBlind_seekUnknown ctx _ _ _ _)
    intro unknown
    cases unknown with
    | several => exact poolBlind_pure _
    | none => exact poolBlind_bind (poolBlind_read _) fun _ => poolBlind_pure _
    | one t => exact poolBlind_bind (poolBlind_read _) fun _ => poolBlind_settle _ _

/-! ## Runs -/

namespace Circuit

variable (s : Circuit c k) (functions : HintTable) (force : Bool)

theorem poolBlind_visitGate (i : Nat) (g : Gate k) (failures : Failures) :
    PoolBlind (s.visitGate functions force i g failures) := by
  apply poolBlind_bind (poolBlind_gate _ g)
  intro outcome
  cases outcome with
  | satisfied => exact poolBlind_pure _
  | unsolvable => exact poolBlind_fail _
  | unsatisfied =>
    apply poolBlind_bind (poolBlind_read _)
    intro detail
    cases force with
    | true => exact poolBlind_bind (poolBlind_report _) fun _ => poolBlind_pure _
    | false => exact poolBlind_fail _

theorem poolBlind_visitGates (i : Nat) (gates : List (Gate k)) (failures : Failures) :
    PoolBlind (s.visitGates functions force i gates failures) := by
  induction gates generalizing i failures with
  | nil => exact poolBlind_pure _
  | cons g rest ih =>
    exact poolBlind_bind (s.poolBlind_visitGate functions force i g failures)
      fun failures => ih (i + 1) failures

theorem poolBlind_runPending (ctx : Context c) (pending : List (WireId × HintCall)) :
    PoolBlind (runPending ctx pending) := by
  induction pending with
  | nil => exact poolBlind_pure ()
  | cons e rest ih => exact poolBlind_bind (poolBlind_solveWithHint ctx e.1 e.2) fun _ => ih

theorem poolBlind_run : PoolBlind (s.run functions force) := by
  apply poolBlind_bind (s.poolBlind_visitGates functions force 0 _ _)
  intro failures
  apply poolBlind_bind (poolBlind_read _)
  intro pending
  exact poolBlind_bind (poolBlind_runPending _ pending) fun _ => poolBlind_pure _

end Circuit

/-! ## Solves -/

/-- The reports differ in nothing but the pool that is left behind.  The trace has the
    hint calls in their order, with what each function was given. -/
structure Report.SameButPool (r r' : Report c) : Prop where
  result_eq : r.result = r'.result
  logger_eq : r.logger = r'.logger
  trace_eq : r.trace = r'.trace

theorem Circuit.solveFrom_sameButPool (s : Circuit c k) (functions : HintTable)
    (options : SolverOptions) {start start' : SolveState c} (h : start.SameButPool start') :
    (s.solveFrom functions options start).SameButPool (s.solveFrom functions options start') := by
  have hends := s.poolBlind_run functions options.force start start' h
  unfold Solving.exec at hends
  unfold solveFrom
  cases hexec : (s.run functions options.force).run.run start with
  | mk ended st =>
    cases hexec' : (s.run functions options.force).run.run start' with
    | mk ended' st' =>
      rw [hexec, hexec'] at hends
      -- the runs end alike, so that the same is printed and reported
      obtain ⟨hended, hst⟩ : ended = ended' ∧ st.SameButPool st' := by
        cases hends with
        | ok hvalue hst => exact ⟨congrArg _ hvalue, hst⟩
        | stopped hstop hst => exact ⟨congrArg _ hstop, hst⟩
      subst hended
      have hprint : s.printTo st.solution options.logger = s.printTo st'.solution options.logger :=
        by rw [hst.solution_eq]
      cases ended with
      | error stop =>
        cases stop with
        | fault f => exact ⟨rfl, rfl, hst.trace_eq⟩
        | error e =>
          simp only [hst.trace_eq, hprint]
          cases s.printTo st'.solution options.logger with
          | mk printed logger =>
            cases printed with
            | error f => exact ⟨rfl, rfl, rfl⟩
            | ok whole => exact ⟨rfl, rfl, rfl⟩
      | ok failures =>
        simp only [hst.trace_eq, hst.solution_eq]
        cases s.printTo st'.solution options.logger with
        | mk printed logger =>
          cases printed with
          | error f => exact ⟨rfl, rfl, rfl⟩
          | ok whole =>
            simp only
            cases conclude st'.solution failures with
            | error stop => exact ⟨rfl, rfl, rfl⟩
            | ok w => exact ⟨rfl, rfl, rfl⟩

namespace Registry

/-- The registries hold the same functions, each under an identifier of its own.  Their
    pools may keep anything. -/
structure SameFunctions (r r' : Registry) : Prop where
  perm : r.functions.Perm r'.functions
  nodup : (r.functions.map HintFunction.id).Nodup

/-- The functions in the order of their identifiers do not depend on the order in which
    they were registered. -/
theorem SameFunctions.snapshot_eq {r r' : Registry} (h : r.SameFunctions r') :
    r.snapshot = r'.snapshot := by
  refine Order.sort_eq_of_perm (by simpa using fun a b d => UInt32.le_trans)
    (by simpa using fun a b => UInt32.le_total _ _) ?_ h.perm
  -- functions with one identifier are one function
  intro a ha b hb hab hba
  rw [decide_eq_true_eq] at hab hba
  have hid : a.id = b.id := congrArg HintId.mk (UInt32.le_antisymm hab hba)
  exact List.inj_on_of_nodup_map h.nodup ha hb hid

end Registry

open Circuit in
/-- What a solve reports does not depend on what the pool of the registry was left with:
    the same result, with the same hint calls and log lines on the way. -/
theorem solve_sameButPool (s : Circuit c k) (assignment : List (Scalar c))
    {registry registry' : Registry} (h : registry.SameFunctions registry')
    (options : SolverOptions) :
    (s.solve assignment registry options).SameButPool
      (s.solve assignment registry' options) := by
  have htable : hintTable registry options = hintTable registry' options := by
    rw [hintTable, hintTable, h.snapshot_eq]
  -- what is refused is refused with the pool as it was
  refine solve_related assignment (fun _ _ => ⟨rfl, rfl, rfl⟩) ?_
  cases htable' : hintTable registry' options with
  | error e => exact .inl ⟨e, htable.trans htable', rfl⟩
  | ok functions =>
    refine .inr ⟨functions, functions, htable.trans htable', rfl, ?_⟩
    intro solution trace _
    exact s.solveFrom_sameButPool functions options ⟨rfl, rfl⟩

/-- Adds the successor of its input to what it finds in its buffer. -/
def HintFunction.accumulator : HintFunction where
  id := ⟨7⟩
  name := "accumulator"
  arity := .fixed 1
  nOutputs _ := 1
  body :=
    { run _ inputs outputs := (outputs.map fun found => found + inputs.headD 0 + 1, .ok ())
      length_run _ _ _ := List.length_map _ }

/-- Two functions, and a pool with integers that earlier calls left. -/
def Registry.used : Registry :=
  .ofFunctions [.accumulator, { HintFunction.successor with id := ⟨8⟩ }] ⟨[5, 6, 7], 256⟩

/-- The same functions, registered the other way round, and a pool without room. -/
def Registry.fresh : Registry := .ofFunctions Registry.used.functions.reverse ⟨[], 0⟩

theorem Registry.sameFunctions_used : Registry.used.SameFunctions .fresh :=
  ⟨(List.reverse_perm _).symm, by decide⟩

/-- A function that reads its buffer before it writes finds zero in it. -/
theorem solve_sameButPool_sample :
    Registry.used.SameFunctions .fresh ∧
      ∃ w, (Circuit.sample.solve [9, 2] .used SolverOptions.standard.withoutOutput).result = .ok w ∧
        (Circuit.sample.solve [9, 2] .fresh SolverOptions.standard.withoutOutput).result = .ok w ∧
        w.values = #[1, 9, 2, 3, 9] := by
  have hsame := solve_sameButPool Circuit.sample [9, 2] Registry.sameFunctions_used
    SolverOptions.standard.withoutOutput
  have hused : ∃ w, (Circuit.sample.solve [9, 2] .used
      SolverOptions.standard.withoutOutput).result = .ok w ∧ w.values = #[1, 9, 2, 3, 9] := by
    apply exists_ok_of_toOption
    decide +kernel
  obtain ⟨w, hw, hvalues⟩ := hused
  exact ⟨Registry.sameFunctions_used, w, hw, hsame.result_eq ▸ hw, hvalues⟩

end CircuitWitness
