import CircuitWitness.Proofs.Solver.Solve

/-! # Requests for the wires of a call

    A request for a wire of a hint call is answered in one of four ways (`Answer`): no
    function takes the call, an input cannot be read, the function fails, or it fills all
    wires of the call.  Only in the last case does the solution change, and only in the last
    two does the function run.  Once the wires are solved, a request does nothing.
-/

namespace CircuitWitness

open Solving

variable {c : Curve}

/-! ## The answer to a request -/

namespace Solution

/-- Solving several wires gives them their values and changes no other. -/
theorem get?_setAll {s t : Solution c} {l : List (WireId × Scalar c)}
    (h : s.setAll l = (.ok (), t)) (u : WireId) : t.get? u = (l.lookup u).or (s.get? u) := by
  -- a wire in the list has its value from there, and the others keep theirs
  cases hfind : l.lookup u with
  | some x => exact (get?_of_setAll h (Assoc.mem_of_lookup hfind)).2
  | none =>
    have hout : u ∉ l.map Prod.fst := by
      intro hmem
      obtain ⟨e, he, rfl⟩ := List.mem_map.1 hmem
      simpa using List.lookup_eq_none_iff.1 hfind e he
    have hkept := get?_setAll_of_ne (s := s) hout
    rw [h] at hkept
    rw [hkept]
    rfl

end Solution

/-- How a request for the unsolved wire `w` of a call is answered, with the runs of hint
    functions and the wires that are solved on the way. -/
inductive Answer (ctx : Context c) (w : WireId) (call : HintCall) (s : Solution c) :
    Except (Stop SolverError) Unit → List Invocation → List (WireId × Scalar c) → Prop where
  | rejected {e : SolverError} (hrejects : ctx.functions.Rejects w call e) :
      Answer ctx w call s (.error (.error e)) [] []
  | blocked {h : HintFunction} {before after : List LinearCombination} {lc : LinearCombination}
      {stop : Stop SolverError} (htakes : ctx.functions.Takes call h)
      (hinputs : call.inputs = before ++ lc :: after)
      (hbefore : ∀ b ∈ before, s.ReadableSum ctx.table b)
      (hblocks : s.Blocks ctx.table call.id lc stop) :
      Answer ctx w call s (.error stop) [] []
  | failed {h : HintFunction} {xs outs : List Nat} {e : HintError}
      (htakes : ctx.functions.Takes call h)
      (hread : ∀ lc ∈ call.inputs, s.ReadableSum ctx.table lc)
      (hxs : inputValues ctx.table (valuation s.complete) call.inputs = xs)
      (hcall : h.call c xs (h.zeros call) = (outs, .error e)) :
      Answer ctx w call s (.error (.error (.hintFailed h.name e)))
        [⟨h, w, call, xs, h.zeros call⟩] []
  | ran {h : HintFunction} {xs outs : List Nat} (htakes : ctx.functions.Takes call h)
      (hread : ∀ lc ∈ call.inputs, s.ReadableSum ctx.table lc)
      (hxs : inputValues ctx.table (valuation s.complete) call.inputs = xs)
      (hcall : h.call c xs (h.zeros call) = (outs, .ok ())) :
      Answer ctx w call s (.ok ()) [⟨h, w, call, xs, h.zeros call⟩]
        (call.wires.zip (outs.map Scalar.ofNat))

/-- The answer to a request, computed. -/
def answer (ctx : Context c) (w : WireId) (call : HintCall) (s : Solution c) :
    Except (Stop SolverError) Unit × List Invocation × List (WireId × Scalar c) :=
  match ctx.functions.handler w call with
  | .error e => (.error (.error e), [], [])
  | .ok h =>
    match s.readInputs ctx.table call.id call.inputs with
    | (.error stop, _) => (.error stop, [], [])
    | (.ok (), xs) =>
      let run := ⟨h, w, call, xs, h.zeros call⟩
      match h.call c xs (h.zeros call) with
      | (_, .error e) => (.error (.error (.hintFailed h.name e)), [run], [])
      | (outs, .ok ()) => (.ok (), [run], call.wires.zip (outs.map Scalar.ofNat))

section Answer

variable {ctx : Context c} {w : WireId} {call : HintCall} {s : Solution c}
  {r : Except (Stop SolverError) Unit} {runs : List Invocation} {solved : List (WireId × Scalar c)}

theorem answer_iff (hb : ∀ lc ∈ call.inputs, ∀ t ∈ lc.terms, t.InBounds ctx.table s.nWires) :
    Answer ctx w call s r runs solved ↔ answer ctx w call s = (r, runs, solved) := by
  have hread : ∀ xs, s.readInputs ctx.table call.id call.inputs = (.ok (), xs) ↔ _ := fun xs =>
    Solution.readInputs_eq_ok_iff s.agrees_complete
  constructor
  · intro h
    -- every way to answer says what the handler, the inputs and the function are
    unfold answer
    cases h with
    | rejected hrejects => rw [HintTable.handler_eq_error_iff.2 hrejects]
    | @blocked h before after lc stop htakes hinputs hbefore hblocks =>
      have hstop : (s.readInputs ctx.table call.id call.inputs).1 = .error stop :=
        (Solution.readInputs_eq_error_iff hb).2 ⟨before, lc, after, hinputs, hbefore, hblocks⟩
      rw [HintTable.handler_eq_ok_iff_takes.2 htakes]
      cases hpair : s.readInputs ctx.table call.id call.inputs with
      | mk r xs =>
        rw [hpair] at hstop
        cases hstop
        rfl
    | @failed h xs outs e htakes hall hxs hcall =>
      simp only [HintTable.handler_eq_ok_iff_takes.2 htakes, (hread xs).2 ⟨hall, hxs⟩, hcall]
    | @ran h xs outs htakes hall hxs hcall =>
      simp only [HintTable.handler_eq_ok_iff_takes.2 htakes, (hread xs).2 ⟨hall, hxs⟩, hcall]
  · intro h
    -- the checks are made one after another, and the first that fails answers
    unfold answer at h
    cases hhandler : ctx.functions.handler w call with
    | error e =>
      rw [hhandler] at h
      cases h
      exact .rejected (HintTable.handler_eq_error_iff.1 hhandler)
    | ok fn =>
      have htakes := HintTable.handler_eq_ok_iff_takes.1 hhandler
      rw [hhandler] at h
      cases hpair : s.readInputs ctx.table call.id call.inputs with
      | mk r' xs =>
        rw [hpair] at h
        cases r' with
        | error stop =>
          cases h
          obtain ⟨before, lc, after, hinputs, hbefore, hblocks⟩ :=
            (Solution.readInputs_eq_error_iff hb).1 (congrArg Prod.fst hpair)
          exact .blocked htakes hinputs hbefore hblocks
        | ok u =>
          obtain ⟨hall, hxs⟩ := (hread xs).1 hpair
          cases hcall : fn.call c xs (fn.zeros call) with
          | mk outs r' =>
            simp only [hcall] at h
            cases r' with
            | error e =>
              cases h
              exact .failed htakes hall hxs hcall
            | ok u =>
              cases h
              exact .ran htakes hall hxs hcall

/-- A request for a wire of a call whose wires are free does what its answer says. -/
theorem exec_solveWithHint {st : SolveState c} (hfree : call.Free st.solution)
    (hw : w ∈ call.wires) (hanswer : answer ctx w call st.solution = (r, runs, solved)) :
    ∃ st', exec (solveWithHint ctx w call) st = (r, st') ∧
      invocations st'.trace = invocations st.trace ++ runs ∧
      st.solution.setAll solved = (.ok (), st'.solution) := by
  obtain ⟨hlt, hnone⟩ := hfree.2 w hw
  unfold answer at hanswer
  -- the wire is one of the circuit and unsolved, so the call is made or no function takes it
  cases hexec : exec (solveWithHint ctx w call) st with
  | mk r' st' =>
    cases requested_of_exec hexec with
    | absent hfault =>
      rw [Solution.isSolved_eq_ok_iff.2 ⟨hlt, rfl⟩] at hfault
      cases hfault
    | answered _ hsome =>
      rw [hnone] at hsome
      cases hsome
    | rejected hhandler =>
      rw [hhandler] at hanswer
      cases hanswer
      exact ⟨_, rfl, (List.append_nil _).symm, rfl⟩
    | called _ _ hhandler hends =>
      rw [hhandler] at hanswer
      cases hends with
      | refused hread =>
        simp only [hread] at hanswer
        cases hanswer
        exact ⟨_, rfl, by simp, rfl⟩
      | failed hread hcall =>
        simp only [hread, hcall] at hanswer
        cases hanswer
        exact ⟨_, rfl, by simp, rfl⟩
      | broke hread hcall hset =>
        -- different wires that are all unsolved are never solved twice
        obtain ⟨solution, hok⟩ := hfree.exists_setAll (HintTable.length_outputs hhandler hcall)
        rw [hset] at hok
        cases hok
      | ran hread hcall hset =>
        simp only [hread, hcall] at hanswer
        cases hanswer
        exact ⟨_, rfl, by simp, hset⟩

end Answer

/-- A wire that is solved is not asked for again. -/
theorem exec_solveWithHint_of_solved {ctx : Context c} {w : WireId} {call : HintCall}
    {st : SolveState c} (hsome : (st.solution.get? w).isSome) :
    exec (solveWithHint ctx w call) st = (.ok (), st) := by
  obtain ⟨x, hx⟩ := Option.isSome_iff_exists.1 hsome
  rw [solveWithHint, exec_bind, exec_read,
    Solution.isSolved_eq_ok_iff.2 ⟨Solution.lt_of_get? hx, hsome⟩]
  rfl

/-- From one state to the other these functions run and these wires are solved, and every
    other wire is as it was. -/
structure SolveState.Gains (st : SolveState c) (runs : List Invocation)
    (solved : List (WireId × Scalar c)) (st' : SolveState c) : Prop where
  invocations_eq : invocations st'.trace = invocations st.trace ++ runs
  setAll_eq : st.solution.setAll solved = (.ok (), st'.solution)
  get?_eq : ∀ u, st'.solution.get? u = (solved.lookup u).or (st.solution.get? u)

/-- A request for a wire of a call that is answered already does nothing.  Otherwise it has
    exactly one answer and does what the answer says; if the call ran, it is answered. -/
theorem request_answered {ctx : Context c} {st : SolveState c} {w : WireId} {call : HintCall}
    (hw : w ∈ call.wires) (hnodup : call.wires.Nodup)
    (hrange : ∀ u ∈ call.wires, u.index < st.solution.nWires)
    (hinputs : ∀ lc ∈ call.inputs, ∀ t ∈ lc.terms, t.InBounds ctx.table st.solution.nWires) :
    ((∀ u ∈ call.wires, (st.solution.get? u).isSome) →
      exec (solveWithHint ctx w call) st = (.ok (), st)) ∧
    ((∀ u ∈ call.wires, st.solution.get? u = none) →
      ∃ r runs solved st', exec (solveWithHint ctx w call) st = (r, st') ∧
        (∀ r' runs' solved', Answer ctx w call st.solution r' runs' solved' ↔
          r' = r ∧ runs' = runs ∧ solved' = solved) ∧
        st.Gains runs solved st' ∧
        (r = .ok () → solved.map Prod.fst = call.wires ∧
          ∀ u ∈ call.wires, ∀ later : SolveState c, st'.solution.Extends later.solution →
            exec (solveWithHint ctx u call) later = (.ok (), later))) := by
  constructor
  · intro hsolved
    exact exec_solveWithHint_of_solved (hsolved w hw)
  · intro hunsolved
    have hfree : call.Free st.solution := ⟨hnodup, fun u hu => ⟨hrange u hu, hunsolved u hu⟩⟩
    obtain ⟨⟨r, runs, solved⟩, hanswer⟩ : ∃ a, answer ctx w call st.solution = a := ⟨_, rfl⟩
    obtain ⟨st', hexec, hruns, hset⟩ := exec_solveWithHint hfree hw hanswer
    have hgains : st.Gains runs solved st' := ⟨hruns, hset, Solution.get?_setAll hset⟩
    refine ⟨r, runs, solved, st', hexec, ?_, hgains, ?_⟩
    · intro r' runs' solved'
      rw [answer_iff hinputs, hanswer, Prod.mk.injEq, Prod.mk.injEq, eq_comm, eq_comm (a := runs),
        eq_comm (a := solved)]
    · intro hok
      subst hok
      -- only a run is answered without an error, and it has filled as many outputs as wires
      have hwires : solved.map Prod.fst = call.wires := by
        cases (answer_iff hinputs).2 hanswer with
        | ran htakes hread hxs hcall =>
          have hhandler := HintTable.handler_eq_ok_iff_takes (w := w).2 htakes
          exact map_fst_zip_map (HintTable.length_outputs hhandler hcall)
      refine ⟨hwires, ?_⟩
      intro u hu later hext
      rw [← hwires] at hu
      obtain ⟨⟨u, x⟩, hmem, rfl⟩ := List.mem_map.1 hu
      have hx := (Solution.get?_of_setAll hset hmem).2
      exact exec_solveWithHint_of_solved (by rw [hext.keeps u x hx]; rfl)

/-- Doubles every input. -/
def HintFunction.twice : HintFunction where
  id := ⟨9⟩
  name := "twice"
  arity := .any
  nOutputs n := n
  body := .fill fun _ inputs i => 2 * inputs.getD i 0

/-- The call for twice the wires `1` and `2`. -/
def HintCall.pair : HintCall :=
  ⟨⟨9⟩, [⟨[⟨.one, ⟨1⟩, .internal⟩]⟩, ⟨[⟨.one, ⟨2⟩, .internal⟩]⟩], [⟨3⟩, ⟨4⟩]⟩

/-- Nothing but the call of the pair. -/
def Context.pair : Context .bn254 := ⟨.new, ⟨[.twice]⟩, ⟨[(⟨3⟩, .pair), (⟨4⟩, .pair)]⟩⟩

/-- The inputs of the pair are `5` and `7`. -/
def SolveState.beforePair : SolveState .bn254 :=
  ⟨⟨#[1, 5, 7, 0, 0], #[true, true, true, false, false], 3, rfl⟩, default, #[]⟩

/-- Twice `5` and `7`, for both wires at once. -/
theorem request_answered_sample :
    ∃ st', exec (solveWithHint .pair ⟨3⟩ .pair) .beforePair = (.ok (), st') ∧
      st'.solution.get? ⟨3⟩ = some 10 ∧ st'.solution.get? ⟨4⟩ = some 14 ∧
      exec (solveWithHint .pair ⟨4⟩ .pair) st' = (.ok (), st') := by
  have hinputs : ∀ lc ∈ HintCall.pair.inputs, ∀ t ∈ lc.terms,
      t.InBounds Context.pair.table SolveState.beforePair.solution.nWires := by decide
  have hrange : ∀ u ∈ HintCall.pair.wires, u.index < SolveState.beforePair.solution.nWires := by
    decide
  have hw : ⟨3⟩ ∈ HintCall.pair.wires := by decide
  obtain ⟨r, runs, solved, st', hexec, hanswer, hgains, hagain⟩ :=
    (request_answered hw (by decide) hrange hinputs).2 (by decide)
  obtain ⟨rfl, -, rfl⟩ := (hanswer _ _ _).1 ((answer_iff hinputs).2 rfl)
  exact ⟨st', hexec, hgains.get?_eq ⟨3⟩, hgains.get?_eq ⟨4⟩,
    (hagain rfl).2 ⟨4⟩ (by decide) st' (.refl _)⟩

end CircuitWitness
