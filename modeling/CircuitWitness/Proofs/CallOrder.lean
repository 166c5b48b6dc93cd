import CircuitWitness.Proofs.Solver.Lookup

/-! # The order of hint calls

    The hint map of a circuit is an unordered map, and the calls can be added to a
    circuit in any order.  Neither shows in a solve: the call behind a wire is found
    whatever the order, and the calls that are pending after the gates are sorted by
    their wires before they are made.  So they are made for wires in increasing
    order, and a call is skipped if an earlier one has solved its wire.
-/

namespace CircuitWitness

open Solving

variable {c : Curve} {k : Kind}

namespace HintMap

/-! ## Entries -/

/-- Calls that are added in another order make the same entries. -/
theorem Represents.perm {m m' : HintMap} {calls calls' : List HintCall}
    (h : m.Represents calls) (h' : m'.Represents calls') (hperm : calls'.Perm calls) :
    m'.entries.Perm m.entries := by
  rw [h.entries, h'.entries]
  exact hperm.flatMap_right _

/-- The entry `b` is not of a lower wire than the entry `a`. -/
def notAfter (a b : WireId × HintCall) : Bool := a.1.index ≤ b.1.index

theorem notAfter_trans (a b d : WireId × HintCall) :
    notAfter a b → notAfter b d → notAfter a d := by
  unfold notAfter
  simpa using Nat.le_trans

theorem notAfter_total (a b : WireId × HintCall) : notAfter a b ∨ notAfter b a := by
  unfold notAfter
  simpa using Nat.le_total _ _

/-- Entries of one wire are one entry. -/
theorem eq_of_notAfter {l : List (WireId × HintCall)} (hnd : (l.map Prod.fst).Nodup)
    {a b : WireId × HintCall} (ha : a ∈ l) (hb : b ∈ l) (hab : notAfter a b)
    (hba : notAfter b a) : a = b := by
  unfold notAfter at hab hba
  rw [decide_eq_true_eq] at hab hba
  exact List.inj_on_of_nodup_map hnd ha hb (congrArg WireId.mk (Nat.le_antisymm hab hba))

/-- Sorted entries of different wires are of wires in increasing order. -/
theorem pairwise_lt_sort {l : List (WireId × HintCall)} (hnd : (l.map Prod.fst).Nodup) :
    ((Order.sort notAfter l).map Prod.fst).Pairwise fun w u => w.index < u.index := by
  have hsorted := Order.pairwise_sort notAfter_trans notAfter_total l
  have hdiffer : ((Order.sort notAfter l).map Prod.fst).Nodup :=
    hnd.perm ((Order.sort_perm l).map Prod.fst).symm
  rw [List.pairwise_map]
  refine (hsorted.and (List.pairwise_map.1 hdiffer)).imp ?_
  rintro a b ⟨hle, hne⟩
  unfold notAfter at hle
  rw [decide_eq_true_eq] at hle
  exact Nat.lt_of_le_of_ne hle fun heq => hne (congrArg WireId.mk heq)

end HintMap

namespace Circuit

/-! ## Pending calls -/

section Pending

variable {s : Circuit c k} {m : HintMap} {solution : Solution c}
  {pending : List (WireId × HintCall)}

theorem pendingWires_eq_error {f : Fault} (h : s.pendingWires solution = .error f) :
    f = .outOfBounds := by
  unfold pendingWires at h
  rw [bind_eq_error_iff] at h
  rcases h with hfilter | ⟨_, -, habs⟩
  · obtain ⟨e, -, he⟩ := filterM_eq_error hfilter
    rw [bind_eq_error_iff] at he
    rcases he with hsolved | ⟨_, -, habs⟩
    · exact Solution.isSolved_eq_error hsolved
    · cases habs
  · cases habs

theorem pendingWires_of_perm (hperm : s.hints.entries.Perm m.entries)
    (hnd : (s.hints.entries.map Prod.fst).Nodup) (h : s.pendingWires solution = .ok pending) :
    (s.withHints m).pendingWires solution = .ok pending := by
  obtain ⟨hrange, hsort⟩ := pendingWires_eq_ok_iff.1 h
  refine pendingWires_eq_ok_iff.2 ⟨fun e he => hrange e (hperm.mem_iff.2 he), ?_⟩
  rw [← hsort]
  refine Order.sort_eq_of_perm HintMap.notAfter_trans HintMap.notAfter_total ?_
    (hperm.symm.filter _)
  intro a ha b hb
  have hentry : ∀ e ∈ m.entries.filter fun e => !(solution.get? e.1).isSome,
      e ∈ s.hints.entries := fun e he => hperm.mem_iff.2 (List.mem_filter.1 he).1
  exact HintMap.eq_of_notAfter hnd (hentry a ha) (hentry b hb)

/-- The calls that are pending do not depend on how the hint map lists its entries. -/
theorem pendingWires_congr (hperm : s.hints.entries.Perm m.entries)
    (hnd : (s.hints.entries.map Prod.fst).Nodup) (solution : Solution c) :
    s.pendingWires solution = (s.withHints m).pendingWires solution := by
  have hnd' : (m.entries.map Prod.fst).Nodup := (hperm.map Prod.fst).nodup_iff.1 hnd
  -- the wires are read in full, so that both lists are pending or both reads fault
  cases h : s.pendingWires solution with
  | ok pending => exact (pendingWires_of_perm hperm hnd h).symm
  | error f =>
    cases h' : (s.withHints m).pendingWires solution with
    | ok pending =>
      have habs : s.pendingWires solution = .ok pending :=
        pendingWires_of_perm (s := s.withHints m) hperm.symm hnd' h'
      rw [h] at habs
      cases habs
    | error f' => rw [pendingWires_eq_error h, pendingWires_eq_error h']

/-- The pending calls stand in the order of their wires, each wire once. -/
theorem pairwise_pending (hnd : (s.hints.entries.map Prod.fst).Nodup)
    (h : s.pendingWires solution = .ok pending) :
    (pending.map Prod.fst).Pairwise fun w u => w.index < u.index := by
  obtain ⟨-, rfl⟩ := pendingWires_eq_ok_iff.1 h
  exact HintMap.pairwise_lt_sort (hnd.sublist (List.filter_sublist.map _))

end Pending

/-! ## Calls after the gates -/

section Calls

variable {ctx : Context c} {st st' : SolveState c} {r : Except (Stop SolverError) Unit}

/-- Asking for a wire runs its call, or none. -/
theorem invocations_of_solveWithHint {w : WireId} {call : HintCall}
    (hexec : exec (solveWithHint ctx w call) st = (r, st')) :
    ∃ runs, invocations st'.trace = invocations st.trace ++ runs ∧
      (runs.map Invocation.wire).Sublist [w] := by
  have hnone : invocations st.trace = invocations st.trace ++ [] := (List.append_nil _).symm
  cases requested_of_exec hexec with
  | absent hfault => exact ⟨[], hnone, List.nil_sublist _⟩
  | answered hlt hsome => exact ⟨[], hnone, List.nil_sublist _⟩
  | rejected hhandler => exact ⟨[], hnone, List.nil_sublist _⟩
  | called hlt hunsolved hhandler hends =>
    -- a call that is made runs its function once, or stops before
    rcases hends.invocations with ⟨run, hrun, -, hinvoked, -⟩ | ⟨-, hinvoked⟩
    · refine ⟨_, hinvoked, ?_⟩
      rw [hrun]
      exact .refl _
    · exact ⟨[], by rw [hinvoked, List.append_nil], List.nil_sublist _⟩

/-- Pending calls are made in their order, and some may be skipped. -/
theorem invocations_of_runPending {pending : List (WireId × HintCall)}
    (hexec : exec (runPending ctx pending) st = (r, st')) :
    ∃ runs, invocations st'.trace = invocations st.trace ++ runs ∧
      (runs.map Invocation.wire).Sublist (pending.map Prod.fst) := by
  induction pending generalizing st with
  | nil =>
    cases hexec
    exact ⟨[], (List.append_nil _).symm, List.nil_sublist _⟩
  | cons e rest ih =>
    rw [runPending, exec_bind] at hexec
    cases hcall : exec (solveWithHint ctx e.1 e.2) st with
    | mk r' mid =>
      obtain ⟨runs, htrace, hruns⟩ := invocations_of_solveWithHint hcall
      rw [hcall] at hexec
      -- a stop leaves out the calls that would follow
      cases r' with
      | error stop =>
        cases hexec
        refine ⟨runs, htrace, hruns.trans ?_⟩
        exact .cons_cons _ (List.nil_sublist _)
      | ok u =>
        obtain ⟨runs', htrace', hruns'⟩ := ih hexec
        refine ⟨runs ++ runs', by rw [htrace', htrace, List.append_assoc], ?_⟩
        rw [List.map_append, List.map_cons]
        exact hruns.append hruns'

end Calls

/-- After the gates, calls are made for wires in increasing order. -/
theorem increasing_of_run {s : Circuit c k} (hnd : (s.hints.entries.map Prod.fst).Nodup)
    {functions : HintTable} {force : Bool} {start mid st : SolveState c} {failures : Failures}
    {ended : Except (Stop SolverError) Failures}
    (hgates : exec (s.visitGates functions force 0 s.gates.toList .none) start =
      (.ok failures, mid))
    (hexec : exec (s.run functions force) start = (ended, st)) :
    ∃ runs, invocations st.trace = invocations mid.trace ++ runs ∧
      (runs.map Invocation.wire).Pairwise fun w u => w.index < u.index := by
  -- past the gates the run is a reading and the pending calls
  unfold run at hexec
  rw [exec_bind, hgates] at hexec
  simp only at hexec
  rw [exec_bind, exec_read] at hexec
  cases hpending : s.pendingWires mid.solution with
  | error f =>
    rw [hpending] at hexec
    cases hexec
    exact ⟨[], (List.append_nil _).symm, .nil⟩
  | ok pending =>
    rw [hpending] at hexec
    simp only [Except.mapError] at hexec
    rw [exec_bind] at hexec
    cases hcalls : exec (runPending (s.context functions) pending) mid with
    | mk r st' =>
      obtain ⟨runs, htrace, hruns⟩ := invocations_of_runPending hcalls
      rw [hcalls] at hexec
      have hst : st' = st := by
        cases r with
        | ok u => exact congrArg Prod.snd hexec
        | error stop => exact congrArg Prod.snd hexec
      rw [← hst]
      exact ⟨runs, htrace, (pairwise_pending hnd hpending).sublist hruns⟩

/-! ## Solves -/

/-- A solve does not depend on how the hint map lists its entries. -/
theorem solve_of_perm {s : Circuit c k} {m : HintMap} (hperm : m.entries.Perm s.hints.entries)
    (hnd : (s.hints.entries.map Prod.fst).Nodup) (assignment : List (Scalar c))
    (registry : Registry) (options : SolverOptions) :
    (s.withHints m).solve assignment registry options = s.solve assignment registry options := by
  have hlookups : ∀ functions,
      (s.context functions).SameLookups ((s.withHints m).context functions) :=
    fun functions => ⟨rfl, Assoc.lookup_perm hperm.symm hnd, fun _ _ => rfl⟩
  have hsolve : ∀ functions start, s.solveFrom functions options start =
      (s.withHints m).solveFrom functions options start := fun functions =>
    solveFrom_congr (run_congr (hlookups functions) (pendingWires_congr hperm.symm hnd) _)
  simp only [solve_eq]
  simp only [hsolve]
  rfl

/-- The order of the hint calls does not show in a solve. -/
structure Unordered (s : Circuit c k) (calls : List HintCall) (assignment : List (Scalar c))
    (registry : Registry) (options : SolverOptions) : Prop where
  /-- The hint map may list its entries in any order. -/
  enumerated : ∀ m : HintMap, m.entries.Perm s.hints.entries →
    (s.withHints m).solve assignment registry options = s.solve assignment registry options
  /-- The calls may be added in any order to a circuit that is the same otherwise. -/
  rebuilt : ∀ calls' s', Built calls' s' → calls'.Perm calls → s' = s.withHints s'.hints →
    s'.solve assignment registry options = s.solve assignment registry options
  /-- After the gates, calls are made for wires in increasing order. -/
  increasing : ∀ functions start failures mid,
    s.Starts assignment registry options functions start →
    exec (s.visitGates functions options.force 0 s.gates.toList .none) start =
      (.ok failures, mid) →
    ∃ runs, invocations (s.solve assignment registry options).trace =
        invocations mid.trace ++ runs ∧
      (runs.map Invocation.wire).Pairwise fun w u => w.index < u.index

end Circuit

open Circuit in
/-- Circuits whose hint calls were added in any order are solved alike: with the same
    result, log lines and calls, in the same order. -/
theorem solve_unordered {calls : List HintCall} {s : Circuit c k} (hs : Built calls s)
    (assignment : List (Scalar c)) (registry : Registry) (options : SolverOptions) :
    s.Unordered calls assignment registry options := by
  have hnd := hs.represents.nodup_map_fst
  constructor
  case enumerated => exact fun m hperm => solve_of_perm hperm hnd assignment registry options
  case rebuilt =>
    intro calls' s' hs' hperm hsame
    rw [hsame]
    exact solve_of_perm (hs.represents.perm hs'.represents hperm) hnd assignment registry options
  case increasing =>
    intro functions start failures mid hstarts hgates
    rw [hstarts.solve_eq]
    cases hexec : exec (s.run functions options.force) start with
    | mk ended st =>
      rw [invocations_solveFrom hexec]
      exact increasing_of_run hnd hgates hexec

/-- The call for the successor of a wire, on the wire after it. -/
def HintCall.next (w : WireId) (v : Visibility) : HintCall :=
  ⟨⟨7⟩, [⟨[⟨.one, w, v⟩]⟩], [⟨w.index + 1⟩]⟩

/-- A circuit without gates for a secret input, its successor, and the successor of that.
    The later call was added first. -/
def Circuit.chain : Circuit .bn254 .rankOne :=
  let later := HintCall.next ⟨2⟩ .internal
  let earlier := HintCall.next ⟨1⟩ .secret
  { Circuit.new ⟨1, 1, 2⟩ with hints := ⟨[(⟨3⟩, later), (⟨2⟩, earlier)]⟩ }

theorem Circuit.built_chain :
    Built [.next ⟨2⟩ .internal, .next ⟨1⟩ .secret] Circuit.chain := by
  have hnew : Built [] (.new ⟨1, 1, 2⟩ : Circuit .bn254 .rankOne) := .new _
  exact (hnew.addHint (.next ⟨2⟩ .internal) rfl).addHint (.next ⟨1⟩ .secret) rfl

open Circuit in
/-- The later call can be made, whichever of the calls the hint map lists first. -/
theorem solve_unordered_sample :
    Built [.next ⟨2⟩ .internal, .next ⟨1⟩ .secret] chain ∧
      ∃ w, (chain.solve [5] .sample SolverOptions.standard).result = .ok w ∧
        ((chain.withHints ⟨chain.hints.entries.reverse⟩).solve [5] .sample
          SolverOptions.standard).result = .ok w ∧
        w.values = #[1, 5, 6, 7] := by
  have hreverse := (solve_unordered built_chain [5] .sample SolverOptions.standard).enumerated
    ⟨chain.hints.entries.reverse⟩ (List.reverse_perm _)
  obtain ⟨w, hw, hvalues⟩ : ∃ w, (chain.solve [5] .sample SolverOptions.standard).result = .ok w ∧
      w.values = #[1, 5, 6, 7] := by
    apply exists_ok_of_toOption
    decide +kernel
  exact ⟨built_chain, w, hw, by rw [hreverse, hw], hvalues⟩

end CircuitWitness
