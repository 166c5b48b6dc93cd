import CircuitWitness.Circuit.Verify
import CircuitWitness.Proofs.Solver.Solve

/-! # A witness is exact

    A gate is judged in the middle of a run, when later wires are still unsolved.
    The verdict is final: at that point every term of the gate is known, and a
    known wire keeps its value.  So the failures that a witness lists are the
    gates whose residual under the witness is not zero, and verification finds
    the first of them.
-/

namespace CircuitWitness

open Solving Relation

variable {c : Curve} {k : Kind}

namespace Circuit

/-- The gate at an index has a residual under an assignment, and it is not zero. -/
def fails (s : Circuit c k) (values : Array (Scalar c)) (i : Nat) : Bool :=
  match s.gates[i]? with
  | none => false
  | some g =>
    match s.residual values g with
    | .ok r => r != 0
    | .error _ => false

/-- The gates that fail under an assignment, in increasing order. -/
def failing (s : Circuit c k) (values : Array (Scalar c)) : List Nat :=
  (List.range s.nConstraints).filter (s.fails values)

theorem fails_eq_true_iff {s : Circuit c k} {values : Array (Scalar c)} {i : Nat} :
    s.fails values i = true ↔
      ∃ g r, s.gates[i]? = some g ∧ s.residual values g = .ok r ∧ r ≠ 0 := by
  unfold fails
  cases s.gates[i]? with
  | none => simp
  | some g =>
    cases hr : s.residual values g with
    | ok r => simp [hr]
    | error f => simp [hr]

/-- The value of the gate at an index is not zero. -/
def failsAt (s : Circuit c k) (v : Valuation c) (i : Nat) : Bool :=
  match s.gates[i]? with
  | none => false
  | some g => g.denote s.table v != 0

end Circuit

/-! ## Noting failures -/

/-- Failures that are noted one after another are all counted, and the first ones
    are recorded. -/
theorem Failures.foldl_note (l : List Nat) :
    l.foldl Failures.note .none = ⟨(l.take Failures.maxRecorded).toArray, l.length⟩ := by
  induction l using List.reverseRecOn with
  | nil => rfl
  | append_singleton l i ih =>
    rw [List.foldl_append, ih, List.foldl_cons, List.foldl_nil, note]
    by_cases hroom : l.length < Failures.maxRecorded
    · -- below the cap everything is recorded
      have hall : l.take Failures.maxRecorded = l := List.take_of_length_le (by omega)
      have hall' : (l ++ [i]).take Failures.maxRecorded = l ++ [i] :=
        List.take_of_length_le (by simpa using hroom)
      simp [hall, hall', hroom]
    · -- at the cap the record stays, and only the count grows
      have hcut : (l ++ [i]).take Failures.maxRecorded = l.take Failures.maxRecorded :=
        List.take_append_of_le_length (by omega)
      have hfull : ¬(l.take Failures.maxRecorded).length < Failures.maxRecorded := by
        rw [List.length_take]
        omega
      simp only [hcut, List.size_toArray, if_neg hfull, List.length_append, List.length_cons,
        List.length_nil]

namespace Circuit

variable {s : Circuit c k} {functions : HintTable} {force : Bool} {start : SolveState c}

/-! ## Gates are judged for good -/

/-- The visited gates can be computed, and the failures so far are those of them
    that fail under every valuation that agrees with the solution. -/
structure Judged (s : Circuit c k) (i : Nat) (failures : Failures) (solution : Solution c) :
    Prop where
  computed : ∀ j g, j < i → s.gates[j]? = some g →
    g.InBounds s.table solution.nWires ∧ ∀ t ∈ g.terms, solution.Known t
  counted : ∀ v : Valuation c, v.Agrees solution →
    failures = ((List.range i).filter (s.failsAt v)).foldl Failures.note .none

theorem Judged.of_extends {i : Nat} {failures : Failures} {solution solution' : Solution c}
    (h : s.Judged i failures solution) (hext : solution.Extends solution') :
    s.Judged i failures solution' := by
  constructor
  · intro j g hj hgate
    obtain ⟨hbounds, hknown⟩ := h.computed j g hj hgate
    rw [hext.nWires_eq]
    exact ⟨hbounds, fun t ht => (hknown t ht).of_extends hext⟩
  · intro v hv
    exact h.counted v (hv.of_extends hext)

/-- The outcome of a visit that is not stuck is the verdict on the gate, under every
    valuation that agrees with the solution. -/
theorem failsAt_iff_of_solve {i : Nat} {g : Gate k} {st mid : SolveState c} {outcome : Outcome}
    (hgate : s.gates[i]? = some g)
    (hsolve : exec (g.solve (s.context functions)) st = (.ok outcome, mid))
    (hnot : outcome ≠ .unsolvable) {v : Valuation c} (hv : v.Agrees mid.solution) :
    s.failsAt v i = true ↔ outcome = .unsatisfied := by
  have hiff := (decided_of_solve hsolve hnot).satisfied_iff v hv
  change outcome = .satisfied ↔ g.denote s.table v = 0 at hiff
  simp only [failsAt, hgate, bne_iff_ne, ne_eq, ← hiff]
  cases outcome with
  | satisfied => simp
  | unsatisfied => simp
  | unsolvable => exact absurd rfl hnot

/-- One visit judges one more gate. -/
theorem Judged.visit {calls : List HintCall} (hrep : s.hints.Represents calls) {i : Nat}
    {g : Gate k} {failures failures' : Failures} {st st' : SolveState c}
    (hgate : s.gates[i]? = some g)
    (hexec : exec (s.visitGate functions force i g failures) st = (.ok failures', st'))
    (h : s.Judged i failures st.solution) : s.Judged (i + 1) failures' st'.solution := by
  have hext : st.solution.Extends st'.solution :=
    extends_of_actions (path_of_visitGate hrep hexec)
  obtain ⟨outcome, mid, hsolve, hsame, hnot, hgo⟩ := visitGate_eq_ok hexec
  obtain ⟨hbounds, hknown, -⟩ := decided_of_solve hsolve hnot
  rw [hsame] at hext ⊢
  -- the earlier verdicts stand, because the visit only extended the solution
  have hkept := h.of_extends hext
  constructor
  · intro j g' hj hgate'
    by_cases hji : j = i
    · rw [hji, hgate] at hgate'
      cases hgate'
      exact ⟨hbounds, hknown⟩
    · exact hkept.computed j g' (by omega) hgate'
  · intro v hv
    have hfails := failsAt_iff_of_solve hgate hsolve hnot hv
    rw [List.range_succ, List.filter_append, List.foldl_append, ← hkept.counted v hv]
    rcases hgo with ⟨rfl, rfl⟩ | ⟨rfl, -, rfl⟩
    · have hholds : s.failsAt v i = false := by simpa using hfails
      simp [hholds]
    · simp [hfails.2 rfl]

theorem Visiting.judged {calls : List HintCall} (hrep : s.hints.Represents calls) {i : Nat}
    {failures : Failures} {st : SolveState c}
    (h : s.Visiting functions force start i failures st) : s.Judged i failures st.solution := by
  induction h with
  | start => exact ⟨fun j g hj => absurd hj (Nat.not_lt_zero j), fun _ _ => rfl⟩
  | next hvisiting hgate hexec ih => exact ih.visit hrep hgate hexec

/-- If no failure is noted, the visited gates hold under every valuation that agrees
    with the solution. -/
theorem Judged.denote_eq_zero {i : Nat} {solution : Solution c} (h : s.Judged i .none solution)
    {v : Valuation c} (hv : v.Agrees solution) {j : Nat} {g : Gate k} (hj : j < i)
    (hgate : s.gates[j]? = some g) : g.denote s.table v = 0 := by
  have hcounted := h.counted v hv
  rw [Failures.foldl_note] at hcounted
  have hnil : (List.range i).filter (s.failsAt v) = [] :=
    List.length_eq_zero_iff.1 (congrArg Failures.count hcounted).symm
  have hholds := List.filter_eq_nil_iff.1 hnil j (List.mem_range.2 hj)
  simpa [failsAt, hgate] using hholds

/-- An unforced run notes no failure. -/
theorem Visiting.failures_eq_none {i : Nat} {failures : Failures} {st : SolveState c}
    (h : s.Visiting functions false start i failures st) : failures = .none := by
  induction h with
  | start => rfl
  | next hvisiting hgate hexec ih =>
    obtain ⟨outcome, mid, -, -, -, hgo⟩ := visitGate_eq_ok hexec
    rcases hgo with ⟨-, hkept⟩ | ⟨-, habs, -⟩
    · rw [hkept, ih]
    · cases habs

/-! ## Verification -/

theorem verifyFrom_cons {values : Array (Scalar c)} {i : Nat} {g : Gate k} {rest : List (Gate k)}
    {r : Scalar c} (hr : s.residual values g = .ok r) :
    s.verifyFrom values i (g :: rest) =
      if r = 0 then s.verifyFrom values (i + 1) rest
      else .error (.error (.residual k i r.decimal)) := by
  rw [verifyFrom, hr]
  by_cases hzero : r = 0
  · subst hzero
    rfl
  · rw [if_neg hzero]
    show (if r ≠ 0 then _ else _ : Except (Stop VerifyError) Unit) = _
    rw [if_pos hzero]
    rfl

/-- Where every gate has a residual, verification accepts, or names the first gate
    that fails. -/
theorem verifyFrom_cases {values : Array (Scalar c)} {i : Nat} {gs : List (Gate k)}
    (hgs : s.gates.toList.drop i = gs)
    (hres : ∀ g ∈ gs, ∃ r, s.residual values g = .ok r) :
    ((∀ j, i ≤ j → s.fails values j = false) ∧ s.verifyFrom values i gs = .ok ()) ∨
      ∃ j g r, s.gates[j]? = some g ∧ s.residual values g = .ok r ∧ r ≠ 0 ∧
        (∀ m, i ≤ m → m < j → s.fails values m = false) ∧
        s.verifyFrom values i gs = .error (.error (.residual k j r.decimal)) := by
  induction gs generalizing i with
  | nil =>
    refine .inl ⟨?_, rfl⟩
    intro j hj
    have hnone : s.gates[j]? = none := by
      rw [List.drop_eq_nil_iff, Array.length_toList] at hgs
      exact Array.getElem?_eq_none (Nat.le_trans hgs hj)
    unfold fails
    rw [hnone]
  | cons g rest ih =>
    obtain ⟨hgate, hrest⟩ := getElem?_of_drop hgs
    obtain ⟨r, hr⟩ := hres g List.mem_cons_self
    rw [verifyFrom_cons hr]
    by_cases hzero : r = 0
    · have hok : s.fails values i = false := by simp [fails, hgate, hr, hzero]
      -- the gate at `i` holds, so what is said of the gates after it is said of it too
      have hfrom : ∀ {P : Nat → Prop}, (∀ m, i + 1 ≤ m → P m → s.fails values m = false) →
          ∀ m, i ≤ m → P m → s.fails values m = false := by
        intro P h m hm hP
        rcases Nat.eq_or_lt_of_le hm with rfl | hlt
        · exact hok
        · exact h m hlt hP
      rw [if_pos hzero]
      rcases ih hrest (fun g' hg' => hres g' (List.mem_cons_of_mem _ hg')) with
        ⟨hall, hverify⟩ | ⟨j, g', r', hgate', hr', hne, hall, hverify⟩
      · refine .inl ⟨?_, hverify⟩
        intro j hj
        exact hfrom (P := fun _ => True) (fun m hm _ => hall m hm) j hj trivial
      · exact .inr ⟨j, g', r', hgate', hr', hne, hfrom hall, hverify⟩
    · rw [if_neg hzero]
      refine .inr ⟨i, g, r, hgate, hr, hzero, ?_, rfl⟩
      intro m hm hmi
      omega

/-- Verification of a full assignment under which every gate has a residual accepts
    if no gate fails, and else names the first that does. -/
theorem verify_cases {values : Array (Scalar c)} (hsize : values.size = s.nWires)
    (hres : ∀ g ∈ s.gates.toList, ∃ r, s.residual values g = .ok r) :
    (s.failing values = [] ∧ s.verify values = .ok ()) ∨
      ∃ i g r, (s.failing values).head? = some i ∧ s.gates[i]? = some g ∧
        s.residual values g = .ok r ∧
        s.verify values = .error (.error (.residual k i r.decimal)) := by
  have hverify : s.verify values = s.verifyFrom values 0 s.gates.toList := by
    unfold verify
    rw [if_neg (not_not.2 hsize)]
  rw [hverify]
  -- verifying finds the first gate that fails, if there is one
  rcases verifyFrom_cases (i := 0) (by simp) hres with
    ⟨hall, hok⟩ | ⟨i, g, r, hgate, hr, hne, hall, herror⟩
  · refine .inl ⟨?_, hok⟩
    rw [failing, List.filter_eq_nil_iff]
    intro j _
    simp [hall j (Nat.zero_le j)]
  · refine .inr ⟨i, g, r, ?_, hgate, hr, herror⟩
    obtain ⟨hlt, -⟩ := Array.getElem?_eq_some_iff.1 hgate
    rw [failing, List.head?_filter, List.find?_range_eq_some]
    refine ⟨fails_eq_true_iff.2 ⟨g, r, hgate, hr, hne⟩, List.mem_range.2 hlt, ?_⟩
    intro j hj
    simp [hall j (Nat.zero_le j) hj]

/-- Verification accepts only what satisfies every gate. -/
theorem denote_eq_zero_of_verify {values : Array (Scalar c)}
    (hbounds : ∀ g ∈ s.gates.toList, g.InBounds s.table s.nWires)
    (h : s.verify values = .ok ()) {g : Gate k} (hg : g ∈ s.gates.toList) :
    g.denote s.table (valuation values) = 0 := by
  have hsize : values.size = s.nWires := by
    by_contra hne
    unfold verify at h
    rw [if_pos hne] at h
    cases h
  have hresidual : ∀ g ∈ s.gates.toList, s.residual values g = .ok (g.denote s.table
      (valuation values)) := by
    intro g hg
    rw [residual_eq_ok_iff, hsize]
    exact ⟨hbounds g hg, rfl⟩
  -- verifying succeeds, so that no gate is found to fail
  rcases verify_cases hsize (fun g hg => ⟨_, hresidual g hg⟩) with
    ⟨hnone, -⟩ | ⟨_, _, _, -, -, -, habs⟩
  · obtain ⟨j, hj⟩ := List.mem_iff_getElem?.1 hg
    rw [Array.getElem?_toList] at hj
    obtain ⟨hlt, -⟩ := Array.getElem?_eq_some_iff.1 hj
    have hholds := List.filter_eq_nil_iff.1 hnone j (List.mem_range.2 hlt)
    by_contra hne
    exact hholds (fails_eq_true_iff.2 ⟨g, _, hj, hresidual g hg, hne⟩)
  · rw [h] at habs
    cases habs

/-! ## The witness -/

/-- On a valid solution every judged gate has a residual, and it fails if its value is
    not zero. -/
theorem Judged.fails_eq {i : Nat} {failures : Failures} {solution : Solution c}
    (h : s.Judged i failures solution) {j : Nat} (hj : j < i) :
    s.fails solution.complete j = s.failsAt (valuation solution.complete) j := by
  unfold fails failsAt
  cases hgate : s.gates[j]? with
  | none => rfl
  | some g =>
    obtain ⟨hbounds, -⟩ := h.computed j g hj hgate
    rw [← Solution.size_complete] at hbounds
    have hr := residual_eq_ok_iff.2 ⟨hbounds, rfl⟩
    simp only [hr]

/-- Once every gate is judged, the gates of value other than zero are those that fail. -/
theorem Judged.failing_eq {failures : Failures} {solution : Solution c}
    (h : s.Judged s.gates.size failures solution) :
    (List.range s.gates.size).filter (s.failsAt (valuation solution.complete)) =
      s.failing solution.complete :=
  List.filter_congr fun _ hj => (h.fails_eq (List.mem_range.1 hj)).symm

/-- The completed solution of a solve starts with the one wire and the inputs. -/
theorem Starts.prefix_complete {assignment : List (Scalar c)} {registry : Registry}
    {options : SolverOptions} (h : s.Starts assignment registry options functions start)
    {solution : Solution c} (hext : start.solution.Extends solution) :
    (1 :: assignment) <+: solution.complete.toList := by
  rw [List.prefix_iff_getElem?]
  intro i hi
  have hseed : start.solution.get? ⟨i⟩ = some (1 :: assignment)[i] := by
    rw [h.get?_eq, List.getElem?_eq_getElem hi]
  rw [Array.getElem?_toList]
  exact Solution.getElem?_complete (hext.keeps _ _ hseed)

theorem Starts.size_complete {assignment : List (Scalar c)} {registry : Registry}
    {options : SolverOptions} (h : s.Starts assignment registry options functions start)
    {solution : Solution c} (hext : start.solution.Extends solution) :
    solution.complete.size = s.nWires := by
  rw [Solution.size_complete, hext.nWires_eq, h.nWires_eq]

/-- A run that ends has judged every gate. -/
theorem judged_of_run {calls : List HintCall} (hrep : s.hints.Represents calls)
    {failures : Failures} {st : SolveState c}
    (hexec : exec (s.run functions force) start = (.ok failures, st)) :
    start.solution.Extends st.solution ∧ s.Judged s.gates.size failures st.solution := by
  obtain ⟨mid, hvisiting, hruns, -⟩ := run_eq_ok hrep hexec
  have hext := extends_of_runs hruns
  exact ⟨(extends_of_actions (hvisiting.actions hrep)).trans hext,
    (hvisiting.judged hrep).of_extends hext⟩

end Circuit

open Circuit in
/-- The witness of a solve holds the one wire and the inputs, every gate has a
    residual under it, and the failures that it lists are those of the gates. -/
theorem solve_exact {calls : List HintCall} {s : Circuit c k} (hbuilt : Built calls s)
    {assignment : List (Scalar c)} {registry : Registry} {options : SolverOptions}
    {w : Witness c} (h : (s.solve assignment registry options).result = .ok w) :
    w.values.size = s.nWires ∧ (1 :: assignment) <+: w.values.toList ∧
      (∀ g ∈ s.gates.toList, ∃ r, s.residual w.values g = .ok r) ∧
      w.nUnsatisfied = (s.failing w.values).length ∧
      w.unsatisfied.toList = (s.failing w.values).take 100 ∧
      (s.verify w.values = .ok () ↔ w.isSatisfied = true) ∧
      (w.isSatisfied = false → ∃ i g r, w.unsatisfied[0]? = some i ∧ s.gates[i]? = some g ∧
        s.residual w.values g = .ok r ∧
        s.verify w.values = .error (.error (.residual k i r.decimal))) := by
  have hrep := hbuilt.represents
  obtain ⟨functions, start, failures, st, hstarts, hexec, hvalid, rfl, -⟩ := solve_eq_ok h
  obtain ⟨hext, hjudged⟩ := judged_of_run hrep hexec
  have hsize := hstarts.size_complete hext
  have hres : ∀ g ∈ s.gates.toList, ∃ r, s.residual st.solution.complete g = .ok r := by
    intro g hg
    obtain ⟨j, hj⟩ := List.mem_iff_getElem?.1 hg
    rw [Array.getElem?_toList] at hj
    obtain ⟨hlt, -⟩ := Array.getElem?_eq_some_iff.1 hj
    obtain ⟨hbounds, -⟩ := hjudged.computed j g hlt hj
    rw [← st.solution.size_complete] at hbounds
    exact ⟨_, residual_eq_ok_iff.2 ⟨hbounds, rfl⟩⟩
  -- the completed solution agrees with the solution, so the verdicts are about it
  have hfailures := hjudged.counted _ st.solution.agrees_complete
  rw [hjudged.failing_eq, Failures.foldl_note] at hfailures
  subst hfailures
  refine ⟨hsize, hstarts.prefix_complete hext, hres, rfl, rfl, ?_⟩
  rcases verify_cases hsize hres with ⟨hnil, hok⟩ | ⟨i, g, r, hhead, hgate, hr, herror⟩
  · simp [hnil, hok, Witness.isSatisfied]
  · have hne : s.failing st.solution.complete ≠ [] := by
      intro hnil
      rw [hnil] at hhead
      cases hhead
    refine ⟨?_, ?_⟩
    · simp [herror, hne, Witness.isSatisfied]
    · intro _
      refine ⟨i, g, r, ?_, hgate, hr, herror⟩
      rw [List.getElem?_toArray, List.getElem?_take_of_lt (by decide),
        ← List.head?_eq_getElem?]
      exact hhead

/-- A forced witness that does not hold, and what verification says of it. -/
theorem solve_exact_sample :
    ∃ w, (Circuit.sample.solve [8, 2] .sample SolverOptions.standard.withoutOutput.forced).result =
        .ok w ∧
      [1, 8, 2] <+: w.values.toList ∧ (Circuit.sample.failing w.values).length = 1 ∧
      ∃ i r, w.unsatisfied[0]? = some i ∧
        Circuit.sample.verify w.values = .error (.error (.residual .rankOne i r)) := by
  obtain ⟨w, hw, hcount⟩ := Circuit.solve_sample_forced
  obtain ⟨-, hinputs, -, hfailing, -, -, hverify⟩ := solve_exact Circuit.built_sample hw
  have hfails : w.isSatisfied = false := by
    unfold Witness.isSatisfied
    rw [hcount]
    rfl
  obtain ⟨i, g, r, hi, -, -, herror⟩ := hverify hfails
  exact ⟨w, hw, hinputs, hfailing.symm.trans hcount, i, r.decimal, hi, herror⟩

end CircuitWitness
