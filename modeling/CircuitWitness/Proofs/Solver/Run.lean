import CircuitWitness.Proofs.Solver.Visit

/-! # Running a circuit

    A run visits the gates one after another.  `Circuit.Visiting` says which
    states it passes between two visits.  A run that gets past the last gate has
    visited every gate; a run that stops at a gate was at one of these states.
    After the gates, the hint calls that are still open are run, so that a run
    that ends has solved every wire that a call produces.
-/

namespace CircuitWitness

open Solving Relation

variable {c : Curve} {k : Kind}

/-- The calls of a circuit are those of the context that its solves read. -/
theorem HintMap.Represents.context {s : Circuit c k} {calls : List HintCall}
    (h : s.hints.Represents calls) (functions : HintTable) :
    (s.context functions).hints.Represents calls := h

namespace Circuit

variable {s : Circuit c k} {functions : HintTable} {force : Bool}

/-! ## One gate -/

/-- A visit that goes on found that the gate holds, or is forced and notes that it
    does not. -/
theorem visitGate_eq_ok {index : Nat} {g : Gate k} {failures failures' : Failures}
    {st st' : SolveState c}
    (hexec : exec (s.visitGate functions force index g failures) st = (.ok failures', st')) :
    ∃ outcome mid, exec (g.solve (s.context functions)) st = (.ok outcome, mid) ∧
      st'.solution = mid.solution ∧ outcome ≠ .unsolvable ∧
      ((outcome = .satisfied ∧ failures' = failures) ∨
        (outcome = .unsatisfied ∧ force = true ∧ failures' = failures.note index)) := by
  unfold visitGate at hexec
  rw [exec_bind_eq_ok_iff] at hexec
  obtain ⟨outcome, mid, hsolve, hexec⟩ := hexec
  refine ⟨outcome, mid, hsolve, ?_⟩
  -- only an unsatisfied gate is diagnosed, and force decides whether the visit goes on
  cases outcome with
  | satisfied =>
    cases hexec
    exact ⟨rfl, by decide, .inl ⟨rfl, rfl⟩⟩
  | unsolvable => cases hexec
  | unsatisfied =>
    simp only at hexec
    rw [exec_bind_eq_ok_iff] at hexec
    obtain ⟨detail, mid', hread, hexec⟩ := hexec
    obtain ⟨-, rfl⟩ := exec_read_eq_ok_iff.1 hread
    cases force with
    | true =>
      cases hexec
      exact ⟨rfl, by decide, .inr ⟨rfl, rfl, rfl⟩⟩
    | false => cases hexec

/-- A visit stops as the gate does, or because the gate cannot be solved or fails. -/
theorem visitGate_eq_error {index : Nat} {g : Gate k} {failures : Failures}
    {st st' : SolveState c} {stop : Stop SolverError}
    (hexec : exec (s.visitGate functions force index g failures) st = (.error stop, st')) :
    exec (g.solve (s.context functions)) st = (.error stop, st') ∨
      ∃ outcome, exec (g.solve (s.context functions)) st = (.ok outcome, st') ∧
        ((outcome = .unsolvable ∧ stop = .error (.unsolvableConstraint index)) ∨
          (outcome = .unsatisfied ∧
            ((∃ f, s.diagnose index g st'.solution = .error f ∧ stop = .fault f) ∨
              (force = false ∧
                ∃ detail, stop = .error (.unsatisfiedConstraint index detail))))) := by
  unfold visitGate at hexec
  rw [exec_bind_eq_error_iff] at hexec
  rcases hexec with hexec | ⟨outcome, mid, hsolve, hexec⟩
  · exact .inl hexec
  · -- the gate was solved, so it is the outcome that stops the visit
    refine .inr ⟨outcome, ?_⟩
    cases outcome with
    | satisfied => cases hexec
    | unsolvable =>
      cases hexec
      exact ⟨hsolve, .inl ⟨rfl, rfl⟩⟩
    | unsatisfied =>
      simp only at hexec
      rw [exec_bind_eq_error_iff] at hexec
      rcases hexec with hread | ⟨detail, mid', hread, hexec⟩
      · rw [exec_read, Prod.mk.injEq, mapError_eq_error_iff] at hread
        obtain ⟨⟨f, hf, hstop⟩, rfl⟩ := hread
        exact ⟨hsolve, .inr ⟨rfl, .inl ⟨f, hf, hstop.symm⟩⟩⟩
      · obtain ⟨-, rfl⟩ := exec_read_eq_ok_iff.1 hread
        cases force with
        | true => cases hexec
        | false =>
          cases hexec
          exact ⟨hsolve, .inr ⟨rfl, .inr ⟨rfl, detail, rfl⟩⟩⟩

/-- A visit does what the gate does, and warns if it is forced past the gate. -/
theorem path_visitGate {A H : SolveState c → SolveState c → Prop} {index : Nat} {g : Gate k}
    {st : SolveState c} (hgate : Path A H st (exec (g.solve (s.context functions)) st))
    (hwarn : ∀ i detail, Follows A H (report (.unsatisfied i detail) : Solving c Unit))
    (failures : Failures) :
    Path A H st (exec (s.visitGate functions force index g failures) st) := by
  apply path_bind hgate
  intro outcome mid _
  -- past the gate itself the visit only reads, stops or warns
  cases outcome with
  | satisfied => exact follows_pure _ mid
  | unsolvable => exact follows_fail _ mid
  | unsatisfied =>
    apply path_bind (follows_read _ mid)
    intro detail mid' _
    cases force with
    | true => exact follows_bind (hwarn index detail) (fun _ => follows_pure _) mid'
    | false => exact follows_fail _ mid'

theorem follows_warning (ctx : Context c) (i : Nat) (detail : String) :
    Follows (Action ctx) (HintStopped ctx) (report (.unsatisfied i detail) : Solving c Unit) :=
  follows_report fun _ => .reported rfl

/-- A visit takes actions, and may stop within a hint call. -/
theorem path_of_visitGate {calls : List HintCall} (hrep : s.hints.Represents calls) {index : Nat}
    {g : Gate k} {failures : Failures} {st st' : SolveState c}
    {r : Except (Stop SolverError) Failures}
    (hexec : exec (s.visitGate functions force index g failures) st = (r, st')) :
    Path (Action (s.context functions)) (HintStopped (s.context functions)) st (r, st') := by
  rw [← hexec]
  exact path_visitGate (actions_gate (hrep.context functions) g st) (follows_warning _) failures

/-! ## All gates -/

/-- The states that a run passes before the gate at an index, with the failures so
    far. -/
inductive Visiting (s : Circuit c k) (functions : HintTable) (force : Bool)
    (start : SolveState c) : Nat → Failures → SolveState c → Prop where
  | start : Visiting s functions force start 0 .none start
  | next {i : Nat} {g : Gate k} {failures failures' : Failures} {st st' : SolveState c}
      (hvisiting : Visiting s functions force start i failures st) (hgate : s.gates[i]? = some g)
      (hexec : exec (s.visitGate functions force i g failures) st = (.ok failures', st')) :
      Visiting s functions force start (i + 1) failures' st'

variable {start : SolveState c}

theorem Visiting.le {i : Nat} {failures : Failures} {st : SolveState c}
    (h : s.Visiting functions force start i failures st) : i ≤ s.gates.size := by
  cases h with
  | start => exact Nat.zero_le _
  | next hvisiting hgate hexec =>
    obtain ⟨hlt, -⟩ := Array.getElem?_eq_some_iff.1 hgate
    exact hlt

theorem getElem?_of_drop {i : Nat} {g : Gate k} {rest : List (Gate k)}
    (hgs : s.gates.toList.drop i = g :: rest) :
    s.gates[i]? = some g ∧ s.gates.toList.drop (i + 1) = rest := by
  constructor
  · have hhead : (s.gates.toList.drop i)[0]? = some g := by rw [hgs]; rfl
    rw [List.getElem?_drop, Nat.add_zero, Array.getElem?_toList] at hhead
    exact hhead
  · rw [← List.drop_drop, hgs]
    rfl

/-- Visiting the gates from an index on gets past the last gate, or stops at one. -/
theorem visiting_of_visitGates {i : Nat} {gs : List (Gate k)} (hgs : s.gates.toList.drop i = gs)
    {failures : Failures} {st st' : SolveState c} {r : Except (Stop SolverError) Failures}
    (hvisiting : s.Visiting functions force start i failures st)
    (hexec : exec (s.visitGates functions force i gs failures) st = (r, st')) :
    (∃ failures', r = .ok failures' ∧
        s.Visiting functions force start s.gates.size failures' st') ∨
      ∃ j g failures' mid stop, r = .error stop ∧
        s.Visiting functions force start j failures' mid ∧ s.gates[j]? = some g ∧
        exec (s.visitGate functions force j g failures') mid = (.error stop, st') := by
  -- the gates from `i` on are `gs`, and the visits before `i` have led to `st`
  induction gs generalizing i failures st with
  | nil =>
    cases hexec
    have hge : s.gates.size ≤ i := by
      rw [← Array.length_toList]
      exact List.drop_eq_nil_iff.1 hgs
    have hi : i = s.gates.size := Nat.le_antisymm hvisiting.le hge
    subst hi
    exact .inl ⟨failures, rfl, hvisiting⟩
  | cons g rest ih =>
    obtain ⟨hgate, hrest⟩ := getElem?_of_drop hgs
    rw [visitGates, exec_bind] at hexec
    cases hvisit : exec (s.visitGate functions force i g failures) st with
    | mk r' mid =>
      rw [hvisit] at hexec
      cases r' with
      | ok failures' => exact ih hrest (hvisiting.next hgate hvisit) hexec
      | error stop =>
        cases hexec
        exact .inr ⟨i, g, failures, st, stop, rfl, hvisiting, hgate, hvisit⟩

/-- Visiting gates does what each gate does in the state in which it is visited. -/
theorem path_visitGates {A H : SolveState c → SolveState c → Prop}
    (hgate : ∀ i g failures st, s.Visiting functions force start i failures st →
      s.gates[i]? = some g → Path A H st (exec (g.solve (s.context functions)) st))
    (hwarn : ∀ i detail, Follows A H (report (.unsatisfied i detail) : Solving c Unit))
    {i : Nat} {gs : List (Gate k)} (hgs : s.gates.toList.drop i = gs) {failures : Failures}
    {st : SolveState c} (hvisiting : s.Visiting functions force start i failures st) :
    Path A H st (exec (s.visitGates functions force i gs failures) st) := by
  -- the visits before `i` have led to `st`, so the next one is a visit of the run from `start`
  induction gs generalizing i failures st with
  | nil => exact follows_pure _ st
  | cons g rest ih =>
    obtain ⟨hi, hrest⟩ := getElem?_of_drop hgs
    apply path_bind (path_visitGate (hgate i g failures st hvisiting hi) hwarn failures)
    intro failures' mid hvisit
    exact ih hrest (hvisiting.next hi hvisit)

theorem Visiting.actions {calls : List HintCall} (hrep : s.hints.Represents calls) {i : Nat}
    {failures : Failures} {st : SolveState c}
    (h : s.Visiting functions force start i failures st) :
    ReflTransGen (Action (s.context functions)) start st := by
  induction h with
  | start => exact .refl
  | next _ _ hexec ih => exact ih.trans (path_of_visitGate hrep hexec)

/-! ## Pending calls -/

theorem pendingWires_eq_ok_iff {solution : Solution c} {pending : List (WireId × HintCall)} :
    s.pendingWires solution = .ok pending ↔
      (∀ e ∈ s.hints.entries, e.1.index < solution.nWires) ∧
        Order.sort (fun a b => a.1.index ≤ b.1.index)
          (s.hints.entries.filter fun e => !(solution.get? e.1).isSome) = pending := by
  -- an entry is tested by a flag, which has to be in range to be read
  have htest : ∀ (e : WireId × HintCall) (b : Bool),
      (do return !(← solution.isSolved e.1) : Except Fault Bool) = .ok b ↔
        e.1.index < solution.nWires ∧ (!(solution.get? e.1).isSome) = b := by
    intro e b
    rw [bind_eq_ok_iff]
    simp only [Solution.isSolved_eq_ok_iff, pure_eq_ok_iff]
    constructor
    · intro ⟨solved, ⟨hlt, hsolved⟩, hb⟩
      exact ⟨hlt, by rw [hsolved, hb]⟩
    · intro ⟨hlt, hb⟩
      exact ⟨_, ⟨hlt, rfl⟩, hb⟩
  unfold pendingWires
  rw [bind_eq_ok_iff]
  simp only [filterM_eq_ok_iff htest, pure_eq_ok_iff]
  constructor
  · intro ⟨_, ⟨hall, heq⟩, hpending⟩
    exact ⟨hall, by rw [heq, hpending]⟩
  · intro ⟨hall, hpending⟩
    exact ⟨_, ⟨hall, rfl⟩, hpending⟩

theorem mem_pendingWires {solution : Solution c} {pending : List (WireId × HintCall)}
    (h : s.pendingWires solution = .ok pending) {e : WireId × HintCall} :
    e ∈ pending ↔ e ∈ s.hints.entries ∧ solution.get? e.1 = none := by
  obtain ⟨-, rfl⟩ := pendingWires_eq_ok_iff.1 h
  simp

theorem runPending_append (ctx : Context c) (before after : List (WireId × HintCall)) :
    runPending ctx (before ++ after) = (do
      runPending ctx before
      runPending ctx after) := by
  induction before with
  | nil => rfl
  | cons e rest ih => rw [List.cons_append, runPending, runPending, bind_assoc, ih]

/-- Each pending call is made in the state that the calls before it have left. -/
theorem path_runPending {A H : SolveState c → SolveState c → Prop} {ctx : Context c}
    {pending : List (WireId × HintCall)} {st : SolveState c}
    (hcall : ∀ before w call after mid, pending = before ++ (w, call) :: after →
      exec (runPending ctx before) st = (.ok (), mid) →
      Path A H mid (exec (solveWithHint ctx w call) mid)) :
    Path A H st (exec (runPending ctx pending) st) := by
  -- from the last call backwards, as for a search
  induction pending using List.reverseRecOn with
  | nil => exact follows_pure () st
  | append_singleton pending e ih =>
    rw [runPending_append]
    refine path_bind (ih ?_) ?_
    · intro before w call after mid hpending hbefore
      refine hcall before w call (after ++ [e]) mid ?_ hbefore
      rw [hpending, List.append_assoc, List.cons_append]
    · intro _ mid hbefore
      exact path_bind (hcall pending e.1 e.2 [] mid rfl hbefore) fun _ mid' _ => follows_pure _ mid'

theorem follows_runPending {ctx : Context c} {pending : List (WireId × HintCall)}
    (hmem : ∀ e ∈ pending, e ∈ ctx.hints.entries) :
    Follows (HintRan ctx) (HintStopped ctx) (runPending ctx pending) :=
  fun _ => path_runPending fun before w call after mid hpending _ =>
    follows_solveWithHint (hmem (w, call) (by simp [hpending])) mid

/-- The pending calls solve their wires. -/
theorem solved_of_runPending {ctx : Context c} {calls : List HintCall}
    (hrep : ctx.hints.Represents calls) {pending : List (WireId × HintCall)}
    (hmem : ∀ e ∈ pending, e ∈ ctx.hints.entries) {st st' : SolveState c}
    (hexec : exec (runPending ctx pending) st = (.ok (), st')) :
    ∀ e ∈ pending, (st'.solution.get? e.1).isSome := by
  -- each call solves its wire, and the calls after it keep it
  induction pending generalizing st with
  | nil => simp
  | cons e rest ih =>
    obtain ⟨w, call⟩ := e
    have hrest := fun e he => hmem e (List.mem_cons_of_mem _ he)
    rw [runPending, exec_bind_eq_ok_iff] at hexec
    obtain ⟨⟨⟩, mid, hcall, hexec⟩ := hexec
    have hsolved := solved_of_solveWithHint hrep (hmem _ List.mem_cons_self) hcall
    have hext := extends_of_runs ((follows_runPending hrest).ok hexec)
    exact List.forall_mem_cons.2 ⟨hext.isSome hsolved.2, ih hrest hexec⟩

theorem stops_runPending {P : SolverError → SolveState c → Prop} {ctx : Context c}
    (hcall : ∀ w call, Stops P (solveWithHint ctx w call)) (pending : List (WireId × HintCall)) :
    Stops P (runPending ctx pending) := by
  induction pending with
  | nil => exact stops_pure ()
  | cons e rest ih => exact stops_bind (hcall e.1 e.2) fun _ => ih

theorem raises_runPending (ctx : Context c) (pending : List (WireId × HintCall)) :
    Raises SolverError.FromHint (runPending ctx pending) :=
  raises_iff.2 (stops_runPending (fun w call => raises_iff.1 (raises_solveWithHint ctx w call))
    pending)

/-! ## The run -/

/-- A run that ends has visited every gate and made the calls that were pending. -/
theorem visiting_of_run {failures : Failures} {st : SolveState c}
    (hexec : exec (s.run functions force) start = (.ok failures, st)) :
    ∃ mid pending, s.Visiting functions force start s.gates.size failures mid ∧
      s.pendingWires mid.solution = .ok pending ∧
      exec (runPending (s.context functions) pending) mid = (.ok (), st) := by
  unfold run at hexec
  rw [exec_bind_eq_ok_iff] at hexec
  obtain ⟨failures', mid, hgates, hexec⟩ := hexec
  rw [exec_bind_eq_ok_iff] at hexec
  obtain ⟨pending, mid', hread, hexec⟩ := hexec
  obtain ⟨hpending, rfl⟩ := exec_read_eq_ok_iff.1 hread
  rw [exec_bind_eq_ok_iff] at hexec
  obtain ⟨⟨⟩, mid'', hcalls, hexec⟩ := hexec
  cases hexec
  -- the gates were visited to the end, since the run went on after them
  rcases visiting_of_visitGates (by simp) .start hgates with
    ⟨failures'', hok, hvisiting⟩ | ⟨j, g, failures'', mid, stop, habs, -⟩
  · cases hok
    exact ⟨mid', pending, hvisiting, hpending, hcalls⟩
  · cases habs

/-- The pending calls are calls of the circuit. -/
theorem follows_pending {solution : Solution c} {pending : List (WireId × HintCall)}
    (hpending : s.pendingWires solution = .ok pending) :
    Follows (HintRan (s.context functions)) (HintStopped (s.context functions))
      (runPending (s.context functions) pending) :=
  follows_runPending fun _ he => ((mem_pendingWires hpending).1 he).1

/-- A run that ends has visited every gate, and then only hint calls ran; it has
    solved every wire that a call produces. -/
theorem run_eq_ok {calls : List HintCall} (hrep : s.hints.Represents calls) {failures : Failures}
    {st : SolveState c} (hexec : exec (s.run functions force) start = (.ok failures, st)) :
    ∃ mid, s.Visiting functions force start s.gates.size failures mid ∧
      ReflTransGen (HintRan (s.context functions)) mid st ∧
      ∀ e ∈ s.hints.entries, (st.solution.get? e.1).isSome := by
  obtain ⟨mid, pending, hvisiting, hpending, hcalls⟩ := visiting_of_run hexec
  have hruns := (follows_pending hpending).ok hcalls
  refine ⟨mid, hvisiting, hruns, ?_⟩
  intro e he
  -- the wire was solved before the pending calls, or one of them solved it
  cases hget : mid.solution.get? e.1 with
  | some x =>
    rw [(extends_of_runs hruns).keeps e.1 x hget]
    rfl
  | none =>
    have hin := (mem_pendingWires hpending).2 ⟨he, hget⟩
    have hmem : ∀ e ∈ pending, e ∈ (s.context functions).hints.entries := fun _ he =>
      ((mem_pendingWires hpending).1 he).1
    exact solved_of_runPending (hrep.context functions) hmem hcalls e hin

/-- A run stops at a gate, or in the hint calls after the last gate. -/
theorem run_eq_error {stop : Stop SolverError} {st : SolveState c}
    (hexec : exec (s.run functions force) start = (.error stop, st)) :
    (∃ i g failures mid, s.Visiting functions force start i failures mid ∧
        s.gates[i]? = some g ∧
        exec (s.visitGate functions force i g failures) mid = (.error stop, st)) ∨
      ∃ failures mid, s.Visiting functions force start s.gates.size failures mid ∧
        ((∃ f, s.pendingWires mid.solution = .error f ∧ stop = .fault f ∧ st = mid) ∨
          ∃ pending, s.pendingWires mid.solution = .ok pending ∧
            exec (runPending (s.context functions) pending) mid = (.error stop, st)) := by
  unfold run at hexec
  rw [exec_bind_eq_error_iff] at hexec
  -- the run stops in the gates or after them, where the wires are read before any call is made
  rcases hexec with hgates | ⟨failures, mid, hgates, hexec⟩
  · rcases visiting_of_visitGates (by simp) .start hgates with
      ⟨failures, habs, -⟩ | ⟨i, g, failures, mid, stop', hstop, hvisiting, hgate, hvisit⟩
    · cases habs
    · cases hstop
      exact .inl ⟨i, g, failures, mid, hvisiting, hgate, hvisit⟩
  · rcases visiting_of_visitGates (by simp) .start hgates with
      ⟨failures', hok, hvisiting⟩ | ⟨j, g, failures'', mid, stop, habs, -⟩
    · cases hok
      refine .inr ⟨failures, mid, hvisiting, ?_⟩
      rw [exec_bind_eq_error_iff] at hexec
      rcases hexec with hread | ⟨pending, mid', hread, hexec⟩
      · rw [exec_read, Prod.mk.injEq, mapError_eq_error_iff] at hread
        obtain ⟨⟨f, hf, hstop⟩, hst⟩ := hread
        exact .inl ⟨f, hf, hstop.symm, hst.symm⟩
      · obtain ⟨hpending, rfl⟩ := exec_read_eq_ok_iff.1 hread
        rw [exec_bind_eq_error_iff] at hexec
        rcases hexec with hexec | ⟨_, _, _, habs⟩
        · exact .inr ⟨pending, hpending, hexec⟩
        · cases habs
    · cases habs

/-- A run stops as its hint calls do, or at a gate that cannot be solved or does not hold. -/
theorem stops_run {P : SolverError → SolveState c → Prop}
    (hcall : ∀ w call, Stops P (solveWithHint (s.context functions) w call))
    (hopen : ∀ i st, P (.unsolvableConstraint i) st)
    (hfails : ∀ i detail st, P (.unsatisfiedConstraint i detail) st) :
    Stops P (s.run functions force) := by
  intro start e st hexec
  -- an error is that of a gate, of its outcome, or of a pending call
  rcases run_eq_error hexec with ⟨i, g, failures, mid, -, -, hvisit⟩ |
    ⟨failures, mid, -, ⟨f, -, habs, -⟩ | ⟨pending, -, hcalls⟩⟩
  · rcases visitGate_eq_error hvisit with hsolve | ⟨outcome, -, ⟨-, hstop⟩ |
      ⟨-, ⟨f, -, habs⟩ | ⟨-, detail, hstop⟩⟩⟩
    · exact stops_gate (fun t => stops_resolve fun call _ => hcall t.wire call) g mid e st hsolve
    · cases hstop
      exact hopen i st
    · cases habs
    · cases hstop
      exact hfails i detail st
  · cases habs
  · exact stops_runPending hcall pending mid e st hcalls

/-- The gates are visited from `start` on, and then the call comes to be made in the state
    `st`, because its wire was still unsolved after the last gate. -/
inductive Pending (s : Circuit c k) (functions : HintTable) (force : Bool)
    (start : SolveState c) (w : WireId) (call : HintCall) (st : SolveState c) : Prop where
  | after {failures : Failures} {mid : SolveState c} {before after : List (WireId × HintCall)}
      (hvisiting : s.Visiting functions force start s.gates.size failures mid)
      (hpending : s.pendingWires mid.solution = .ok (before ++ (w, call) :: after))
      (hexec : exec (runPending (s.context functions) before) mid = (.ok (), st)) :
      Pending s functions force start w call st

/-- What is pending are calls of the circuit. -/
theorem Pending.mem_entries {w : WireId} {call : HintCall} {st : SolveState c}
    (h : s.Pending functions force start w call st) : (w, call) ∈ s.hints.entries := by
  obtain ⟨-, hpending, -⟩ := h
  exact ((mem_pendingWires hpending).1 (by simp)).1

/-- A run does what its gates and its calls do, and warns where it is forced. -/
theorem path_run {A H : SolveState c → SolveState c → Prop}
    (hgate : ∀ i g failures st, s.Visiting functions force start i failures st →
      s.gates[i]? = some g → Path A H st (exec (g.solve (s.context functions)) st))
    (hwarn : ∀ i detail, Follows A H (report (.unsatisfied i detail) : Solving c Unit))
    (hcall : ∀ w call st, s.Pending functions force start w call st →
      Path A H st (exec (solveWithHint (s.context functions) w call) st)) :
    Path A H start (exec (s.run functions force) start) := by
  apply path_bind (path_visitGates hgate hwarn (by simp) .start)
  intro failures mid hgates
  rcases visiting_of_visitGates (by simp) .start hgates with
    ⟨failures', hok, hvisiting⟩ | ⟨j, g, failures', mid', stop, habs, -⟩
  · cases hok
    apply path_bind (follows_read _ mid)
    intro pending mid' hread
    obtain ⟨hpending, rfl⟩ := exec_read_eq_ok_iff.1 hread
    -- before a pending call, the ones ahead of it have been made
    refine path_bind (path_runPending ?_) fun _ mid'' _ => follows_pure _ mid''
    intro before w call after st hsplit hbefore
    rw [hsplit] at hpending
    exact hcall w call st (.after hvisiting hpending hbefore)
  · cases habs

theorem follows_run {A H : SolveState c → SolveState c → Prop}
    (hgate : ∀ g : Gate k, Follows A H (g.solve (s.context functions)))
    (hwarn : ∀ i detail, Follows A H (report (.unsatisfied i detail) : Solving c Unit))
    (hcall : ∀ w call, (w, call) ∈ s.hints.entries →
      Follows A H (solveWithHint (s.context functions) w call)) :
    Follows A H (s.run functions force) :=
  fun _ => path_run (fun _ g _ st _ _ => hgate g st) hwarn
    fun w call st hpending => hcall w call hpending.mem_entries st

/-- A run takes actions, and may stop within a hint call. -/
theorem path_of_run {calls : List HintCall} (hrep : s.hints.Represents calls)
    {r : Except (Stop SolverError) Failures} {st : SolveState c}
    (hexec : exec (s.run functions force) start = (r, st)) :
    Path (Action (s.context functions)) (HintStopped (s.context functions)) start (r, st) := by
  rw [← hexec]
  exact follows_run (actions_gate (hrep.context functions)) (follows_warning _)
    (fun _ _ hmem => follows_of_runs (follows_solveWithHint hmem)) start

/-- A run that ends has only taken actions. -/
theorem actions_of_run {calls : List HintCall} (hrep : s.hints.Represents calls)
    {failures : Failures} {st : SolveState c}
    (hexec : exec (s.run functions force) start = (.ok failures, st)) :
    ReflTransGen (Action (s.context functions)) start st :=
  path_of_run hrep hexec

/-- A run only extends the solution, however it ends. -/
theorem extends_of_run {calls : List HintCall} (hrep : s.hints.Represents calls)
    {r : Except (Stop SolverError) Failures} {st : SolveState c}
    (hexec : exec (s.run functions force) start = (r, st)) :
    start.solution.Extends st.solution := by
  cases r with
  | ok failures => exact extends_of_actions (actions_of_run hrep hexec)
  | error stop =>
    obtain ⟨mid, hacts, hlast⟩ := path_of_run hrep hexec
    rcases hlast with rfl | hstop
    · exact extends_of_actions hacts
    · exact (extends_of_actions hacts).trans hstop.extends

end Circuit

end CircuitWitness
