import CircuitWitness.Proofs.Exactness

/-! # Warnings of a forced run

    A gate that is not satisfied stops an unforced run and gives a forced run a
    warning.  Up to that gate the two take the same steps (`VisitEnds`), so the
    first gate that an unforced run could stop at is the one of the first warning.
    A forced run warns once of each gate that fails, in the order of the gates.
-/

namespace CircuitWitness

open Solving Relation

variable {c : Curve} {k : Kind} {α : Type}

/-- The constraint of a warning, and what is shown of it. -/
def Event.warning? : Event → Option (Nat × String)
  | unsatisfied i detail => some (i, detail)
  | _ => none

/-- The warnings of a trace, in order. -/
def warnings (trace : Array Event) : List (Nat × String) :=
  trace.toList.filterMap Event.warning?

theorem warnings_push_of_none {trace : Array Event} {e : Event} (h : e.warning? = none) :
    warnings (trace.push e) = warnings trace := by
  simp [warnings, h]

@[simp] theorem warnings_push_unsatisfied (trace : Array Event) (i : Nat) (detail : String) :
    warnings (trace.push (.unsatisfied i detail)) = warnings trace ++ [(i, detail)] := by
  simp [warnings, Event.warning?]

/-! ## Steps without a warning -/

/-- No warning was added. -/
def Quiet (st st' : SolveState c) : Prop := warnings st'.trace = warnings st.trace

theorem CallEnds.quiet {ctx : Context c} {w : WireId} {call : HintCall} {h : HintFunction}
    {st st' : SolveState c} {r : Except (Stop SolverError) Unit}
    (hends : CallEnds ctx w call h st r st') : Quiet st st' := by
  have hrefusal : ∀ n xs, Quiet st (st.afterRefusal n xs) := fun _ _ => warnings_push_of_none rfl
  have hrun : ∀ run outs solution, Quiet st (st.afterRun run outs solution) := fun _ _ _ =>
    (warnings_push_of_none rfl).trans (warnings_push_of_none rfl)
  cases hends with
  | refused hread => exact hrefusal _ _
  | failed hread hcall => exact hrun _ _ _
  | broke hread hcall hset => exact hrun _ _ _
  | ran hread hcall hset => exact hrun _ _ _

/-- Steps that add no warning end without one, however they end. -/
theorem Solving.Follows.quiet {x : Solving c α} (h : Follows Quiet Quiet x) {st st' : SolveState c}
    {r : Except (Stop SolverError) α} (hexec : exec x st = (r, st')) : Quiet st st' := by
  have hquiet : ∀ {mid}, ReflTransGen Quiet st mid → Quiet st mid := fun hacts =>
    preserved (I := fun mid => Quiet st mid) (fun _ _ hact hmid => Eq.trans hact hmid) hacts rfl
  cases r with
  | ok a => exact hquiet (h.ok hexec)
  | error stop =>
    obtain ⟨mid, hacts, hlast⟩ := h.error hexec
    rcases hlast with rfl | hlast
    · exact hquiet hacts
    · exact Eq.trans hlast (hquiet hacts)

/-- Hint calls do not warn. -/
theorem follows_quiet {ctx : Context c} {x : Solving c α}
    (h : Follows (HintRan ctx) (HintStopped ctx) x) : Follows Quiet Quiet x := by
  apply h.mono
  · intro st st' hran
    obtain ⟨w, call, fn, -, hends⟩ := hran
    exact hends.quiet
  · intro st st' hstop
    obtain ⟨w, call, fn, stop, -, hends⟩ := hstop
    exact hends.quiet

theorem quiet_gate (ctx : Context c) (g : Gate k) : Follows Quiet Quiet (g.solve ctx) :=
  follows_gate (fun t => follows_quiet (follows_resolve ctx t))
    (fun _ _ => follows_set fun _ _ _ => rfl) g

namespace Circuit

variable {s : Circuit c k} {functions : HintTable} {force : Bool} {start : SolveState c}

/-! ## One gate -/

/-- The visit of the gate from a state finds that it is not satisfied, with this to
    show. -/
def Refutes (s : Circuit c k) (functions : HintTable) (i : Nat) (g : Gate k)
    (st : SolveState c) (detail : String) : Prop :=
  ∃ mid, exec (g.solve (s.context functions)) st = (.ok .unsatisfied, mid) ∧
    s.diagnose i g mid.solution = .ok detail

/-- How the visit of a gate ends, unforced and forced. -/
inductive VisitEnds (s : Circuit c k) (functions : HintTable) (i : Nat) (g : Gate k)
    (failures : Failures) (st : SolveState c) :
    Except (Stop SolverError) Failures × SolveState c →
      Except (Stop SolverError) Failures × SolveState c → Prop where
  /-- The gate is not found to fail, and the visit is the same. -/
  | agree {ended : Except (Stop SolverError) Failures} {st' : SolveState c} (hquiet : Quiet st st')
      (hnot : ∀ detail, ¬s.Refutes functions i g st detail)
      (hstop : ∀ j detail, ended ≠ .error (.error (.unsatisfiedConstraint j detail)))
      (hsame : ∀ failures', ended = .ok failures' → failures' = failures) :
      VisitEnds s functions i g failures st (ended, st') (ended, st')
  /-- The gate fails: the unforced visit stops and the forced one warns. -/
  | part {mid : SolveState c} {detail : String} (hquiet : Quiet st mid)
      (hrefutes : s.Refutes functions i g st detail) :
      VisitEnds s functions i g failures st
        (.error (.error (.unsatisfiedConstraint i detail)), mid)
        (.ok (failures.note i), { mid with trace := mid.trace.push (.unsatisfied i detail) })

theorem visitEnds (s : Circuit c k) (functions : HintTable) (i : Nat) (g : Gate k)
    (failures : Failures) (st : SolveState c) :
    VisitEnds s functions i g failures st
      (exec (s.visitGate functions false i g failures) st)
      (exec (s.visitGate functions true i g failures) st) := by
  unfold visitGate
  rw [exec_bind, exec_bind]
  cases hsolve : exec (g.solve (s.context functions)) st with
  | mk ended mid =>
    have hquiet := (quiet_gate (s.context functions) g).quiet hsolve
    -- the gate fails only if its outcome says so and there is something to show
    have hnot : (∀ detail, ended = .ok .unsatisfied → s.diagnose i g mid.solution ≠ .ok detail) →
        ∀ detail, ¬s.Refutes functions i g st detail := by
      intro hdiagnose detail ⟨mid', hsolve', hdetail⟩
      rw [hsolve] at hsolve'
      cases hsolve'
      exact hdiagnose detail rfl hdetail
    cases ended with
    | error stop =>
      refine .agree hquiet (hnot nofun) ?_ nofun
      intro j detail habs
      exact raises_gate (raises_resolve _) g st (.unsatisfiedConstraint j detail)
        (by rw [hsolve]; exact congrArg _ (Except.error.inj habs))
    | ok outcome =>
      cases outcome with
      | satisfied =>
        refine .agree hquiet (hnot nofun) nofun ?_
        intro failures' hok
        cases hok
        rfl
      | unsolvable => exact .agree hquiet (hnot nofun) nofun nofun
      | unsatisfied =>
        simp only [exec_bind, exec_read]
        cases hdiagnose : s.diagnose i g mid.solution with
        | error f =>
          refine .agree hquiet (hnot ?_) nofun nofun
          intro detail _ habs
          rw [hdiagnose] at habs
          cases habs
        | ok detail => exact .part hquiet ⟨mid, hsolve, hdiagnose⟩

/-! ## Unforced steps are steps of the forced run -/

theorem exec_visitGate_forced {i : Nat} {g : Gate k} {failures : Failures} {st : SolveState c}
    (hnot : ∀ j detail, (exec (s.visitGate functions false i g failures) st).1 ≠
      .error (.error (.unsatisfiedConstraint j detail))) :
    exec (s.visitGate functions true i g failures) st =
      exec (s.visitGate functions false i g failures) st := by
  have hends := s.visitEnds functions i g failures st
  generalize exec (s.visitGate functions false i g failures) st = unforced at hends hnot ⊢
  generalize exec (s.visitGate functions true i g failures) st = forced at hends ⊢
  cases hends with
  | agree => rfl
  | part => exact absurd rfl (hnot _ _)

theorem exec_visitGates_forced {i : Nat} {gs : List (Gate k)} {failures : Failures}
    {st : SolveState c}
    (hnot : ∀ j detail, (exec (s.visitGates functions false i gs failures) st).1 ≠
      .error (.error (.unsatisfiedConstraint j detail))) :
    exec (s.visitGates functions true i gs failures) st =
      exec (s.visitGates functions false i gs failures) st := by
  -- no gate stops the unforced run as unsatisfied, so each visit is the same with force
  induction gs generalizing i failures st with
  | nil => rfl
  | cons g rest ih =>
    rw [visitGates, exec_bind] at hnot
    rw [visitGates, visitGates, exec_bind, exec_bind, exec_visitGate_forced]
    · cases hvisit : exec (s.visitGate functions false i g failures) st with
      | mk ended mid =>
        rw [hvisit] at hnot
        cases ended with
        | error stop => rfl
        | ok failures' => exact ih hnot
    · intro j detail habs
      cases hvisit : exec (s.visitGate functions false i g failures) st with
      | mk ended mid =>
        rw [hvisit] at hnot habs
        cases habs
        exact hnot j detail rfl

/-- A run that no unsatisfied gate stops is the same forced. -/
theorem exec_run_forced
    (hnot : ∀ j detail, (exec (s.run functions false) start).1 ≠
      .error (.error (.unsatisfiedConstraint j detail))) :
    exec (s.run functions true) start = exec (s.run functions false) start := by
  unfold run at hnot ⊢
  rw [exec_bind] at hnot
  rw [exec_bind, exec_bind, exec_visitGates_forced]
  intro j detail habs
  cases hgates : exec (s.visitGates functions false 0 s.gates.toList .none) start with
  | mk ended mid =>
    rw [hgates] at hnot habs
    cases habs
    exact hnot j detail rfl

/-- The states before a gate that an unforced run reaches are reached by the forced
    one. -/
theorem Visiting.forced {i : Nat} {failures : Failures} {st : SolveState c}
    (h : s.Visiting functions false start i failures st) :
    s.Visiting functions true start i failures st := by
  induction h with
  | start => exact .start
  | @next i g failures failures' st st' hvisiting hgate hexec ih =>
    refine ih.next hgate ?_
    rw [exec_visitGate_forced, hexec]
    rw [hexec]
    nofun

/-! ## All gates -/

theorem Visiting.unique {i : Nat} {failures failures' : Failures} {st st' : SolveState c}
    (h : s.Visiting functions force start i failures st)
    (h' : s.Visiting functions force start i failures' st') : failures = failures' ∧ st = st' := by
  -- visits of as many gates have taken the same steps
  induction h generalizing failures' st' with
  | start =>
    cases h'
    exact ⟨rfl, rfl⟩
  | next hvisiting hgate hexec ih =>
    cases h' with
    | next hvisiting' hgate' hexec' =>
      obtain ⟨rfl, rfl⟩ := ih hvisiting'
      rw [hgate] at hgate'
      cases hgate'
      rw [hexec] at hexec'
      cases hexec'
      exact ⟨rfl, rfl⟩

/-- The forced run visits the constraint at an index, which then fails, with this to
    show. -/
def FailsWith (s : Circuit c k) (functions : HintTable) (start : SolveState c) (i : Nat)
    (detail : String) : Prop :=
  ∃ g failures st, s.Visiting functions true start i failures st ∧ s.gates[i]? = some g ∧
    s.Refutes functions i g st detail

/-- The warnings of a run that has visited the gates before an index. -/
structure Warned (s : Circuit c k) (functions : HintTable) (start : SolveState c) (i : Nat)
    (issued : List (Nat × String)) : Prop where
  ordered : (issued.map Prod.fst).Pairwise (· < ·)
  mem_iff : ∀ j detail, (j, detail) ∈ issued ↔ j < i ∧ s.FailsWith functions start j detail

/-- A gate that is not found to fail adds no warning. -/
theorem Warned.skip {i : Nat} {issued : List (Nat × String)}
    (h : s.Warned functions start i issued)
    (hnot : ∀ detail, ¬s.FailsWith functions start i detail) :
    s.Warned functions start (i + 1) issued := by
  refine ⟨h.ordered, ?_⟩
  intro j detail
  -- the constraint passed over does not fail, so nothing is missed
  rw [h.mem_iff, Nat.lt_succ_iff_lt_or_eq]
  constructor
  · intro ⟨hlt, hfails⟩
    exact ⟨.inl hlt, hfails⟩
  · intro ⟨hle, hfails⟩
    rcases hle with hlt | rfl
    · exact ⟨hlt, hfails⟩
    · exact absurd hfails (hnot detail)

/-- A gate that fails adds its warning. -/
theorem Warned.warn {i : Nat} {issued : List (Nat × String)} {detail : String}
    (h : s.Warned functions start i issued)
    (hfails : ∀ detail', s.FailsWith functions start i detail' ↔ detail' = detail) :
    s.Warned functions start (i + 1) (issued ++ [(i, detail)]) := by
  constructor
  · -- all warnings so far are of constraints before this one
    rw [List.map_append, List.pairwise_append]
    refine ⟨h.ordered, List.pairwise_singleton _ _, ?_⟩
    intro j hj j' hj'
    obtain ⟨⟨j, detail'⟩, hmem, rfl⟩ := List.mem_map.1 hj
    obtain rfl : j' = i := by simpa using hj'
    exact ((h.mem_iff j detail').1 hmem).1
  · intro j detail'
    rw [List.mem_append, h.mem_iff, Nat.lt_succ_iff_lt_or_eq, List.mem_singleton, Prod.mk.injEq]
    constructor
    · intro hj
      rcases hj with ⟨hlt, hfailed⟩ | ⟨rfl, hdetail⟩
      · exact ⟨.inl hlt, hfailed⟩
      · exact ⟨.inr rfl, (hfails detail').2 hdetail⟩
    · intro ⟨hle, hfailed⟩
      rcases hle with hlt | rfl
      · exact .inl ⟨hlt, hfailed⟩
      · exact .inr ⟨rfl, (hfails detail').1 hfailed⟩

/-- Whether a gate fails is seen at its visit. -/
theorem Visiting.failsWith_iff {i : Nat} {g : Gate k} {failures : Failures} {st : SolveState c}
    (h : s.Visiting functions true start i failures st) (hgate : s.gates[i]? = some g)
    {detail : String} :
    s.FailsWith functions start i detail ↔ s.Refutes functions i g st detail := by
  constructor
  · intro ⟨g', failures', st', h', hgate', hrefutes⟩
    obtain ⟨-, rfl⟩ := h.unique h'
    rw [hgate] at hgate'
    cases hgate'
    exact hrefutes
  · intro hrefutes
    exact ⟨g, failures, st, h, hgate, hrefutes⟩

theorem Refutes.unique {i : Nat} {g : Gate k} {st : SolveState c} {detail detail' : String}
    (h : s.Refutes functions i g st detail) (h' : s.Refutes functions i g st detail') :
    detail = detail' := by
  obtain ⟨mid, hsolve, hdetail⟩ := h
  obtain ⟨mid', hsolve', hdetail'⟩ := h'
  rw [hsolve] at hsolve'
  cases hsolve'
  rw [hdetail] at hdetail'
  cases hdetail'
  rfl

/-- Before each gate of a forced run, the gates that failed are warned of and noted. -/
theorem Visiting.warned (hstart : warnings start.trace = []) {i : Nat} {failures : Failures}
    {st : SolveState c} (h : s.Visiting functions true start i failures st) :
    s.Warned functions start i (warnings st.trace) ∧
      failures = ((warnings st.trace).map Prod.fst).foldl Failures.note .none := by
  induction h with
  | start =>
    rw [hstart]
    exact ⟨⟨.nil, by simp⟩, rfl⟩
  | @next i g failures failures' st st' hvisiting hgate hexec ih =>
    obtain ⟨hwarned, hnoted⟩ := ih
    -- the forced visit is compared with the unforced one, which tells whether the gate fails
    have hends := s.visitEnds functions i g failures st
    rw [hexec] at hends
    have hfails : ∀ detail, s.FailsWith functions start i detail ↔
        s.Refutes functions i g st detail := fun _ => hvisiting.failsWith_iff hgate
    generalize exec (s.visitGate functions false i g failures) st = unforced at hends
    generalize hforced : (Except.ok failures', st') = forced at hends
    cases hends with
    | agree hquiet hnot hstop hsame =>
      cases hforced
      rw [hquiet, hsame _ rfl]
      exact ⟨hwarned.skip fun detail habs => hnot detail ((hfails detail).1 habs), hnoted⟩
    | @part mid detail hquiet hrefutes =>
      cases hforced
      simp only [warnings_push_unsatisfied]
      rw [hquiet, List.map_append, List.foldl_append, ← hnoted]
      refine ⟨hwarned.warn fun detail' => ?_, rfl⟩
      rw [hfails]
      exact ⟨fun h => h.unique hrefutes, fun h => h ▸ hrefutes⟩

/-- The gates that a forced run has warned of are those of the visited gates that fail
    under every valuation that agrees with the solution. -/
theorem Visiting.map_fst_warnings {calls : List HintCall} (hrep : s.hints.Represents calls)
    (hstart : warnings start.trace = []) {i : Nat} {failures : Failures} {st : SolveState c}
    (h : s.Visiting functions true start i failures st) {v : Valuation c}
    (hv : v.Agrees st.solution) :
    (warnings st.trace).map Prod.fst = (List.range i).filter (s.failsAt v) := by
  induction h with
  | start =>
    rw [hstart]
    rfl
  | @next i g failures failures' st st' hvisiting hgate hexec ih =>
    -- a gate fails under a valuation if it was found to fail: its terms are all known by now
    have hext : st.solution.Extends st'.solution :=
      extends_of_actions (path_of_visitGate hrep hexec)
    obtain ⟨outcome, mid, hsolve, hsame, hnot, hgo⟩ := visitGate_eq_ok hexec
    have hfails := failsAt_iff_of_solve hgate hsolve hnot (hsame ▸ hv)
    rw [List.range_succ, List.filter_append, ← ih (hv.of_extends hext)]
    have hends := s.visitEnds functions i g failures st
    rw [hexec] at hends
    generalize exec (s.visitGate functions false i g failures) st = unforced at hends
    generalize hforced : (Except.ok failures', st') = forced at hends
    cases hends with
    | agree hquiet hnone hstop hkept =>
      cases hforced
      rcases hgo with ⟨rfl, -⟩ | ⟨-, -, hnoted⟩
      · have hholds : s.failsAt v i = false := by simpa using hfails
        rw [hquiet]
        simp [hholds]
      · -- a noted failure is counted, and here nothing was
        have habs := congrArg Failures.count ((hkept _ rfl).symm.trans hnoted)
        exact absurd habs (Nat.ne_of_lt (Nat.lt_succ_self _))
    | @part mid' detail hquiet hrefutes =>
      cases hforced
      rcases hgo with ⟨-, hkept⟩ | ⟨rfl, -⟩
      · have habs := congrArg Failures.count hkept
        exact absurd habs.symm (Nat.ne_of_lt (Nat.lt_succ_self _))
      · simp only [warnings_push_unsatisfied]
        rw [hquiet]
        simp [hfails.2 rfl]

/-- A run that visits the gate at an index went on after each gate before it. -/
theorem Visiting.passed {i j : Nat} {failures : Failures} {st : SolveState c}
    (h : s.Visiting functions force start j failures st) (hlt : i < j) :
    ∃ g failures₁ failures₂ st₁ st₂, s.Visiting functions force start i failures₁ st₁ ∧
      s.gates[i]? = some g ∧
      exec (s.visitGate functions force i g failures₁) st₁ = (.ok failures₂, st₂) := by
  induction h with
  | start => exact absurd hlt (Nat.not_lt_zero i)
  | @next j g failures failures' st st' hvisiting hgate hexec ih =>
    rcases Nat.lt_succ_iff_lt_or_eq.1 hlt with hlt | rfl
    · exact ih hlt
    · exact ⟨g, failures, failures', st, st', hvisiting, hgate, hexec⟩

/-- A run that stopped at a gate visits none after it. -/
theorem Visiting.le_of_stopped {i j : Nat} {failures : Failures} {st st' : SolveState c}
    {g : Gate k} {stop : Stop SolverError} {detail : String}
    (h : s.Visiting functions true start i failures st) (hgate : s.gates[i]? = some g)
    (hvisit : exec (s.visitGate functions true i g failures) st = (.error stop, st'))
    (hfails : s.FailsWith functions start j detail) : j ≤ i := by
  obtain ⟨_, _, _, hvisiting, _⟩ := hfails
  by_contra hgt
  obtain ⟨g₁, _, _, _, _, hvisiting₁, hgate₁, hexec₁⟩ := hvisiting.passed (Nat.lt_of_not_le hgt)
  obtain ⟨rfl, rfl⟩ := h.unique hvisiting₁
  rw [hgate] at hgate₁
  cases hgate₁
  rw [hvisit] at hexec₁
  cases hexec₁

/-- The warnings of a forced run, however it ends: one of each gate that fails, in the
    order of the gates. -/
theorem warned_of_run (hstart : warnings start.trace = [])
    {ended : Except (Stop SolverError) Failures} {st : SolveState c}
    (hexec : exec (s.run functions true) start = (ended, st)) :
    ((warnings st.trace).map Prod.fst).Pairwise (· < ·) ∧
      (∀ j detail, (j, detail) ∈ warnings st.trace ↔ s.FailsWith functions start j detail) ∧
      ∀ failures, ended = .ok failures →
        failures = ((warnings st.trace).map Prod.fst).foldl Failures.note .none := by
  -- it is enough that the run warned of the gates before one that no failing gate comes after
  have hconclude : ∀ {i failures mid}, s.Visiting functions true start i failures mid →
      Quiet mid st → (∀ j detail, s.FailsWith functions start j detail → j < i) →
      ((warnings st.trace).map Prod.fst).Pairwise (· < ·) ∧
        ∀ j detail, (j, detail) ∈ warnings st.trace ↔ s.FailsWith functions start j detail := by
    intro i failures mid hvisiting hquiet hbefore
    obtain ⟨hwarned, -⟩ := hvisiting.warned hstart
    rw [hquiet]
    refine ⟨hwarned.ordered, ?_⟩
    intro j detail
    rw [hwarned.mem_iff]
    exact ⟨fun h => h.2, fun h => ⟨hbefore j detail h, h⟩⟩
  have hall : ∀ j detail, s.FailsWith functions start j detail → j < s.gates.size := by
    intro j detail ⟨g, _, _, _, hgate, _⟩
    exact (Array.getElem?_eq_some_iff.1 hgate).1
  cases ended with
  | ok failures =>
    obtain ⟨mid, pending, hvisiting, hpending, hcalls⟩ := visiting_of_run hexec
    have hquiet := (follows_quiet (follows_pending hpending)).quiet hcalls
    obtain ⟨hordered, hmem⟩ := hconclude hvisiting hquiet hall
    refine ⟨hordered, hmem, ?_⟩
    intro failures' hok
    cases hok
    rw [hquiet]
    exact (hvisiting.warned hstart).2
  | error stop =>
    rcases run_eq_error hexec with ⟨i, g, failures, mid, hvisiting, hgate, hvisit⟩ |
      ⟨failures, mid, hvisiting, ⟨f, -, -, rfl⟩ | ⟨pending, hpending, hcalls⟩⟩
    · have hends := s.visitEnds functions i g failures mid
      rw [hvisit] at hends
      generalize exec (s.visitGate functions false i g failures) mid = unforced at hends
      cases hends with
      | agree hquiet hnot hstop hsame =>
        have hlast : ∀ j detail, s.FailsWith functions start j detail → j < i := by
          intro j detail hfails
          refine Nat.lt_of_le_of_ne (hvisiting.le_of_stopped hgate hvisit hfails) ?_
          rintro rfl
          exact hnot detail ((hvisiting.failsWith_iff hgate).1 hfails)
        obtain ⟨hordered, hmem⟩ := hconclude hvisiting hquiet hlast
        exact ⟨hordered, hmem, nofun⟩
    · obtain ⟨hordered, hmem⟩ := hconclude hvisiting rfl hall
      exact ⟨hordered, hmem, nofun⟩
    · have hquiet := (follows_quiet (follows_pending hpending)).quiet hcalls
      obtain ⟨hordered, hmem⟩ := hconclude hvisiting hquiet hall
      exact ⟨hordered, hmem, nofun⟩

end Circuit

end CircuitWitness
