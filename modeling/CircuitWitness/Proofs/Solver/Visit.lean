import CircuitWitness.Proofs.Solver.Isolation
import CircuitWitness.Proofs.Solver.Search
import CircuitWitness.Solver.Run

/-! # What a visit of a gate does

    A visit runs the hint calls behind the terms of the gate.  Then it checks the
    gate, or solves its one unknown, or is stuck (`Visited`).  Only a wire that
    no call produces is solved by a gate.

    The proofs about a solve go through `Visited` and never open the two kinds of
    gates again.
-/

namespace CircuitWitness

open Solving Relation

variable {c : Curve} {k : Kind}

/-- The visit of the gate finds an unknown, and the gate holds whatever value the
    unknown takes. -/
def Gate.LeavesFree (ctx : Context c) (st : SolveState c) : Gate k → Prop
  | rankOne g => ∃ p mid,
      exec (seekUnknown ctx Place.term (fun _ _ => true) none g.places) st = (.ok (.one p), mid) ∧
        g.LeavesFree ctx.table mid.solution p
  | sparse g => ∃ t mid,
      exec (seekUnknown ctx id (fun a b => a.wire != b.wire) none g.terms) st =
          (.ok (.one t), mid) ∧
        g.LeavesFree ctx.table mid.solution

/-- How a visit of the gate ends that does not stop the solve. -/
inductive Visited (ctx : Context c) (g : Gate k) (st : SolveState c) :
    Outcome → SolveState c → Prop where
  /-- All terms of the gate are known, and its value is checked. -/
  | checked {st' : SolveState c} {b : Bool} (hruns : ReflTransGen (HintRan ctx) st st')
      (hbounds : g.InBounds ctx.table st'.solution.nWires)
      (hknown : ∀ t ∈ g.terms, st'.solution.Known t)
      (hvalue : ∀ v : Valuation c, v.Agrees st'.solution →
        (b = true ↔ g.denote ctx.table v = 0)) :
      Visited ctx g st (.ofBool b) st'
  /-- The gate is affine in its one unknown wire, which is solved. -/
  | solved {mid : SolveState c} {solution : Solution c} {t : Term} {α β x : Scalar c}
      {outcome : Outcome} (hruns : ReflTransGen (HintRan ctx) st mid)
      (hbounds : g.InBounds ctx.table mid.solution.nWires) (hmem : t ∈ g.terms)
      (hexposed : Exposed ctx mid.solution t)
      (hknown : ∀ u ∈ g.terms, mid.solution.Known u ∨ u.wire = t.wire)
      (haffine : ∀ v : Valuation c, v.Agrees mid.solution →
        g.denote ctx.table v = α * v t.wire + β)
      (hsolves : SolvesAffine α β x outcome)
      (hfree : α = 0 → β = 0 → g.LeavesFree ctx st)
      (hset : mid.solution.set t.wire x = .ok solution) :
      Visited ctx g st outcome { mid with solution }
  /-- The gate has several unknowns, or its unknown cannot be isolated. -/
  | stuck {st' : SolveState c} (hruns : ReflTransGen (HintRan ctx) st st') :
      Visited ctx g st .unsolvable st'

/-! ## Every visit is one of these -/

section Solve

variable {ctx : Context c} {calls : List HintCall}

theorem exec_settle_eq_ok {w : WireId} {demand : Option (Scalar c × Outcome)}
    {st st' : SolveState c} {outcome : Outcome}
    (hexec : exec (settle w demand) st = (.ok outcome, st')) :
    (demand = none ∧ outcome = .unsolvable ∧ st' = st) ∨
      ∃ x solution, demand = some (x, outcome) ∧ st.solution.set w x = .ok solution ∧
        st' = { st with solution } := by
  cases demand with
  | none =>
    cases hexec
    exact .inl ⟨rfl, rfl, rfl⟩
  | some demand =>
    obtain ⟨x, outcome'⟩ := demand
    rw [settle, exec_bind_eq_ok_iff] at hexec
    obtain ⟨⟨⟩, mid, hexec', hexec⟩ := hexec
    obtain ⟨solution, hset, rfl⟩ := exec_set_eq_ok_iff.1 hexec'
    cases hexec
    exact .inr ⟨x, solution, rfl, hset, rfl⟩

/-- What follows a search: a gate without an unknown is checked, the one unknown is isolated and
    solved, and otherwise the gate is given up. -/
inductive Concludes {π : Type} (check : Solution c → Except Fault Bool)
    (isolate : Solution c → π → Except Fault (Option (Scalar c × Outcome))) (wire : π → WireId)
    (mid : SolveState c) : Unknowns π → Outcome → SolveState c → Prop where
  | checked {b : Bool} (hcheck : check mid.solution = .ok b) :
      Concludes check isolate wire mid .none (.ofBool b) mid
  | solved {p : π} {x : Scalar c} {outcome : Outcome} {solution : Solution c}
      (hisolate : isolate mid.solution p = .ok (some (x, outcome)))
      (hset : mid.solution.set (wire p) x = .ok solution) :
      Concludes check isolate wire mid (.one p) outcome { mid with solution }
  | stuck {u : Unknowns π} : Concludes check isolate wire mid u .unsolvable mid

/-- A rank-one gate is searched for unknowns if all its operands are set. -/
theorem concludes_rankOne {g : RankOne} {st st' : SolveState c} {outcome : Outcome}
    (hexec : exec (g.solve ctx) st = (.ok outcome, st')) :
    g.assertSet = .ok () ∧ ∃ u mid,
      exec (seekUnknown ctx Place.term (fun _ _ => true) none g.places) st = (.ok u, mid) ∧
      Concludes (g.holds ctx.table) (g.isolate ctx.table) (·.term.wire) mid u outcome st' := by
  unfold RankOne.solve at hexec
  rw [exec_bind_eq_ok_iff] at hexec
  obtain ⟨⟨⟩, mid₀, hread, hexec⟩ := hexec
  obtain ⟨hset, rfl⟩ := exec_read_eq_ok_iff.1 hread
  rw [exec_bind_eq_ok_iff] at hexec
  obtain ⟨u, mid, hseek, hexec⟩ := hexec
  refine ⟨hset, u, mid, hseek, ?_⟩
  -- what follows the search depends on how many unknowns it found
  cases u with
  | several =>
    cases hexec
    exact .stuck
  | none =>
    simp only at hexec
    rw [exec_bind_eq_ok_iff] at hexec
    obtain ⟨b, mid', hread, hexec⟩ := hexec
    obtain ⟨hholds, rfl⟩ := exec_read_eq_ok_iff.1 hread
    cases hexec
    exact .checked hholds
  | one p =>
    simp only at hexec
    rw [exec_bind_eq_ok_iff] at hexec
    obtain ⟨demand, mid', hread, hexec⟩ := hexec
    obtain ⟨hisolate, rfl⟩ := exec_read_eq_ok_iff.1 hread
    rcases exec_settle_eq_ok hexec with ⟨-, rfl, rfl⟩ | ⟨x, solution, rfl, hset, rfl⟩
    · exact .stuck
    · exact .solved hisolate hset

/-- A sparse gate without an unknown is checked by its residual. -/
theorem concludes_sparse {g : SparseGate} {st st' : SolveState c} {outcome : Outcome}
    (hexec : exec (g.solve ctx) st = (.ok outcome, st')) : ∃ u mid,
      exec (seekUnknown ctx id (fun a b => a.wire != b.wire) none g.terms) st = (.ok u, mid) ∧
      Concludes (fun s => return (← g.residualOf ctx.table s) == 0)
        (fun s t => g.isolate ctx.table s t.wire) (·.wire) mid u outcome st' := by
  unfold SparseGate.solve at hexec
  rw [exec_bind_eq_ok_iff] at hexec
  obtain ⟨u, mid, hseek, hexec⟩ := hexec
  refine ⟨u, mid, hseek, ?_⟩
  cases u with
  | several =>
    cases hexec
    exact .stuck
  | none =>
    simp only at hexec
    -- the residual is read, and the check compares it with zero
    rw [exec_bind_eq_ok_iff] at hexec
    obtain ⟨x, mid', hread, hexec⟩ := hexec
    obtain ⟨hresidual, rfl⟩ := exec_read_eq_ok_iff.1 hread
    cases hexec
    exact .checked (bind_eq_ok_iff.2 ⟨x, hresidual, rfl⟩)
  | one t =>
    simp only at hexec
    rw [exec_bind_eq_ok_iff] at hexec
    obtain ⟨demand, mid', hread, hexec⟩ := hexec
    obtain ⟨hisolate, rfl⟩ := exec_read_eq_ok_iff.1 hread
    rcases exec_settle_eq_ok hexec with ⟨-, rfl, rfl⟩ | ⟨x, solution, rfl, hset, rfl⟩
    · exact .stuck
    · exact .solved hisolate hset

theorem sought_rankOne (hrep : ctx.hints.Represents calls) {g : RankOne} {st mid : SolveState c}
    {u : Unknowns Place}
    (hexec : exec (seekUnknown ctx Place.term (fun _ _ => true) none g.places) st =
      (.ok u, mid)) :
    Sought ctx mid.solution Place.term (· = ·) none g.places u :=
  sought_of_seekUnknown hrep (fun _ => rfl) (fun _ _ _ h h' => h.trans h') nofun nofun hexec

theorem sought_sparse (hrep : ctx.hints.Represents calls) {g : SparseGate}
    {st mid : SolveState c} {u : Unknowns Term}
    (hexec : exec (seekUnknown ctx id (fun a b => a.wire != b.wire) none g.terms) st =
      (.ok u, mid)) :
    Sought ctx mid.solution id (fun a b => a.wire = b.wire) none g.terms u := by
  refine sought_of_seekUnknown hrep ?_ ?_ ?_ nofun hexec
  · intro a
    rfl
  · intro a b d hab hbd
    exact Eq.trans hab hbd
  · intro a b hclash
    simpa using hclash

theorem visited_rankOne (hrep : ctx.hints.Represents calls) {g : RankOne} {st st' : SolveState c}
    {outcome : Outcome} (hexec : exec (g.solve ctx) st = (.ok outcome, st')) :
    Visited ctx (.rankOne g) st outcome st' := by
  obtain ⟨-, u, mid, hseek, hends⟩ := concludes_rankOne hexec
  have hruns := (follows_seekUnknown ctx _ _ none g.places).ok hseek
  have hsought := sought_rankOne hrep hseek
  cases hends with
  | stuck => exact .stuck hruns
  | checked hholds =>
    obtain ⟨-, hrange, hknown⟩ := hsought
    have hiff := fun v hv => (RankOne.holds_eq_ok_iff (v := v) hv).1 hholds
    -- that the constants exist is the same under any valuation, so take the completed solution
    obtain ⟨hterms, -⟩ := hiff _ (Solution.agrees_complete _)
    refine .checked hruns ⟨?_, by simp [Gate.extraCoefficients]⟩ ?_ ?_
    · intro t ht
      exact ⟨(hterms t ht).1, RankOne.forall_mem_terms hrange t ht⟩
    · exact RankOne.forall_mem_terms hknown
    · intro v hv
      rw [← (hiff v hv).2, decide_eq_true_iff]
  | @solved p _ _ _ hisolate hset =>
    obtain _ | ⟨_, horigin, hrange, hknown, -, hexposed⟩ := hsought
    have hp := horigin.resolve_right (Option.some_ne_none _).symm
    obtain ⟨α, β, haffine, hsolves, hfree, hcoeffs⟩ :=
      RankOne.isolate_spec hp hexposed.isOpen.real hisolate
    refine .solved hruns ⟨?_, by simp [Gate.extraCoefficients]⟩ (RankOne.term_mem_terms hp)
      hexposed ?_ haffine hsolves ?_ hset
    · intro t ht
      exact ⟨hcoeffs t ht, RankOne.forall_mem_terms hrange t ht⟩
    · apply RankOne.forall_mem_terms
      intro q hq
      exact (hknown q hq).imp_right fun heq => by rw [heq]
    · intro hα hβ
      exact ⟨p, mid, hseek, hfree hα hβ⟩

theorem visited_sparse (hrep : ctx.hints.Represents calls) {g : SparseGate}
    {st st' : SolveState c} {outcome : Outcome}
    (hexec : exec (g.solve ctx) st = (.ok outcome, st')) :
    Visited ctx (.sparse g) st outcome st' := by
  obtain ⟨u, mid, hseek, hends⟩ := concludes_sparse hexec
  have hruns := (follows_seekUnknown ctx _ _ none g.terms).ok hseek
  have hsought := sought_sparse hrep hseek
  cases hends with
  | stuck => exact .stuck hruns
  | checked hcheck =>
    obtain ⟨-, hrange, hknown⟩ := hsought
    obtain ⟨r, hresidual, hr⟩ := bind_eq_ok_iff.1 hcheck
    cases hr
    have hiff := fun v hv => (SparseGate.residualOf_eq_ok_iff (v := v) hv).1 hresidual
    -- one valuation is enough to learn what the residual says of the terms
    obtain ⟨hterms, hk, -⟩ := hiff _ (Solution.agrees_complete _)
    refine .checked hruns ⟨?_, by simpa [Gate.extraCoefficients] using hk⟩ hknown ?_
    · intro t ht
      exact ⟨(hterms t ht).1, hrange t ht⟩
    · intro v hv
      rw [(hiff v hv).2.2, beq_iff_eq]
  | @solved t _ _ _ hisolate hset =>
    obtain _ | ⟨_, horigin, hrange, hknown, -, hexposed⟩ := hsought
    -- the search begins without an unknown, so what it found is a term of the gate
    have ht := horigin.resolve_right (Option.some_ne_none _).symm
    have hopen : ∀ u ∈ g.terms, mid.solution.Open u → u.wire = t.wire := fun u hu hop =>
      (hknown u hu).resolve_left hop.not_known
    obtain ⟨α, β, haffine, hsolves, hfree, hcoeffs, hk⟩ :=
      SparseGate.isolate_spec hexposed.isOpen.unsolved hopen hisolate
    refine .solved hruns ⟨?_, by simpa [Gate.extraCoefficients] using hk⟩ ht hexposed hknown
      haffine hsolves ?_ hset
    · intro u hu
      exact ⟨hcoeffs u hu, hrange u hu⟩
    · intro hα hβ
      exact ⟨t, mid, hseek, hfree hα hβ⟩

theorem visited_of_solve (hrep : ctx.hints.Represents calls) {g : Gate k} {st st' : SolveState c}
    {outcome : Outcome} (hexec : exec (g.solve ctx) st = (.ok outcome, st')) :
    Visited ctx g st outcome st' := by
  cases g with
  | rankOne g => exact visited_rankOne hrep hexec
  | sparse g => exact visited_sparse hrep hexec

end Solve

/-! ## What a visit establishes -/

/-- The gate can be computed, and the outcome tells whether it holds. -/
structure Gate.Decided (table : CoefficientTable c) (s : Solution c) (g : Gate k)
    (outcome : Outcome) : Prop where
  inBounds : g.InBounds table s.nWires
  known : ∀ t ∈ g.terms, s.Known t
  satisfied_iff : ∀ v : Valuation c, v.Agrees s →
    (outcome = .satisfied ↔ g.denote table v = 0)

/-- The unknown was the only wire missing, and now it has a value. -/
theorem decided_of_affine {table : CoefficientTable c} {s solution : Solution c} {g : Gate k}
    {w : WireId} {α β x : Scalar c} {outcome : Outcome} (hbounds : g.InBounds table s.nWires)
    (hknown : ∀ t ∈ g.terms, s.Known t ∨ t.wire = w)
    (haffine : ∀ v : Valuation c, v.Agrees s → g.denote table v = α * v w + β)
    (hsolves : SolvesAffine α β x outcome) (hset : s.set w x = .ok solution) :
    g.Decided table solution outcome := by
  have hext := Solution.extends_of_set hset
  have hx : solution.get? w = some x := by rw [Solution.get?_of_set hset, if_pos rfl]
  refine ⟨?_, ?_, ?_⟩
  · rw [hext.nWires_eq]
    exact hbounds
  · intro t ht
    -- a term was known before, or it is at the wire just solved
    rcases hknown t ht with hk | hwire
    · exact hk.of_extends hext
    · refine .inr (.inr ?_)
      rw [hwire, hx]
      rfl
  · intro v hv
    rw [haffine v (hv.of_extends hext), hv w x hx]
    exact hsolves.satisfied_iff

theorem ofBool_eq_satisfied_iff {b : Bool} : Outcome.ofBool b = .satisfied ↔ b = true := by
  cases b with
  | true => simp [Outcome.ofBool]
  | false => simp [Outcome.ofBool]

section Decided

variable {ctx : Context c} {st st' : SolveState c} {outcome : Outcome}

theorem decided_rankOne {g : RankOne} (hexec : exec (g.solve ctx) st = (.ok outcome, st'))
    (hnot : outcome ≠ .unsolvable) :
    (Gate.rankOne g).Decided ctx.table st'.solution outcome := by
  obtain ⟨-, u, mid, hseek, hends⟩ := concludes_rankOne hexec
  cases hends with
  | stuck => exact absurd rfl hnot
  | checked hholds =>
    have hrange := RankOne.forall_mem_terms (inRange_of_seekUnknown hseek (by simp))
    have hiff := fun v hv => (RankOne.holds_eq_ok_iff (v := v) hv).1 hholds
    -- one valuation is enough to learn what the check says of the terms
    obtain ⟨hterms, -⟩ := hiff _ (Solution.agrees_complete _)
    refine ⟨⟨?_, by simp [Gate.extraCoefficients]⟩, fun t ht => (hterms t ht).2, ?_⟩
    · intro t ht
      exact ⟨(hterms t ht).1, hrange t ht⟩
    · intro v hv
      rw [ofBool_eq_satisfied_iff, ← (hiff v hv).2, decide_eq_true_iff]
  | @solved p _ _ _ hisolate hset =>
    have hrange := RankOne.forall_mem_terms (inRange_of_seekUnknown hseek (by simp))
    -- a second unknown ends the search, so all other terms are known
    obtain ⟨horigin, hknown, -⟩ := same_of_seekUnknown (· = ·) (fun _ => rfl)
      (fun _ _ _ h h' => h.trans h') (by simp) hseek
    have hp := horigin.resolve_right (Option.some_ne_none _).symm
    have hreal := unknown_of_seekUnknown (I := fun _ t => t.isVirtual = false)
      (fun _ hopen => hopen.real) (fun _ h => h) (by simp) hseek
    obtain ⟨α, β, haffine, hsolves, -, hcoeffs⟩ := RankOne.isolate_spec hp hreal hisolate
    refine decided_of_affine ⟨?_, by simp [Gate.extraCoefficients]⟩ ?_ haffine hsolves hset
    · intro t ht
      exact ⟨hcoeffs t ht, hrange t ht⟩
    · apply RankOne.forall_mem_terms
      intro q hq
      exact (hknown q hq).imp_right fun heq => by rw [heq]

theorem decided_sparse {g : SparseGate} (hexec : exec (g.solve ctx) st = (.ok outcome, st'))
    (hnot : outcome ≠ .unsolvable) :
    (Gate.sparse g).Decided ctx.table st'.solution outcome := by
  obtain ⟨u, mid, hseek, hends⟩ := concludes_sparse hexec
  cases hends with
  | stuck => exact absurd rfl hnot
  | checked hcheck =>
    have hrange := inRange_of_seekUnknown hseek (by simp)
    obtain ⟨x, hresidual, hx⟩ := bind_eq_ok_iff.1 hcheck
    cases hx
    have hiff := fun v hv => (SparseGate.residualOf_eq_ok_iff (v := v) hv).1 hresidual
    obtain ⟨hterms, hk, -⟩ := hiff _ (Solution.agrees_complete _)
    refine ⟨⟨?_, by simpa [Gate.extraCoefficients] using hk⟩, fun t ht => (hterms t ht).2, ?_⟩
    · intro t ht
      exact ⟨(hterms t ht).1, hrange t ht⟩
    · intro v hv
      rw [ofBool_eq_satisfied_iff, (hiff v hv).2.2, beq_iff_eq]
  | @solved t _ _ _ hisolate hset =>
    have hrange := inRange_of_seekUnknown hseek (by simp)
    obtain ⟨-, hknown, -⟩ := same_of_seekUnknown (fun a b : Term => a.wire = b.wire)
      (fun _ => rfl) (fun _ _ _ h h' => Eq.trans h h') (fun _ _ h => by simpa using h) hseek
    have hopen : ∀ u ∈ g.terms, mid.solution.Open u → u.wire = t.wire := fun u hu hop =>
      (hknown u hu).resolve_left hop.not_known
    -- the wire is unsolved, or it could not have been set
    obtain ⟨α, β, haffine, hsolves, -, hcoeffs, hk⟩ :=
      SparseGate.isolate_spec (Solution.unsolved_of_set hset).2 hopen hisolate
    refine decided_of_affine ⟨?_, by simpa [Gate.extraCoefficients] using hk⟩ hknown haffine
      hsolves hset
    intro u hu
    exact ⟨hcoeffs u hu, hrange u hu⟩

/-- Whatever the context, a visit that is not stuck decides the gate. -/
theorem decided_of_solve {g : Gate k} (hexec : exec (g.solve ctx) st = (.ok outcome, st'))
    (hnot : outcome ≠ .unsolvable) : g.Decided ctx.table st'.solution outcome := by
  cases g with
  | rankOne g => exact decided_rankOne hexec hnot
  | sparse g => exact decided_sparse hexec hnot

end Decided

section Outcomes

variable {ctx : Context c} {g : Gate k} {st st' : SolveState c} {outcome : Outcome}

/-- A gate that does not leave its unknown free forces it: a valuation that
    makes the gate hold, and that the hint calls do not contradict, agrees with the
    solution after the visit, and the visit finds that the gate holds. -/
theorem Visited.forced (h : Visited ctx g st outcome st') (hnot : outcome ≠ .unsolvable)
    (hpinned : ¬g.LeavesFree ctx st) {v : Valuation c}
    (hran : ∀ st st', HintRan ctx st st' → v.Agrees st.solution → v.Agrees st'.solution)
    (hv : v.Agrees st.solution) (hzero : g.denote ctx.table v = 0) :
    outcome = .satisfied ∧ v.Agrees st'.solution := by
  cases h with
  | @checked _ b hruns hbounds hknown hvalue =>
    have hv' := preserved (I := fun st => v.Agrees st.solution) hran hruns hv
    rw [(hvalue v hv').2 hzero]
    exact ⟨rfl, hv'⟩
  | @solved mid solution t α β x _ hruns hbounds hmem hexposed hknown haffine hsolves hfree hset =>
    have hv' := preserved (I := fun st => v.Agrees st.solution) hran hruns hv
    -- the gate holds, so the value of the unknown is a zero of its affine function
    rw [haffine v hv'] at hzero
    obtain ⟨hout, hx⟩ := hsolves.forced (fun hα hβ => hpinned (hfree hα hβ)) hzero
    exact ⟨hout, hv'.set hset hx⟩
  | stuck hruns => exact absurd rfl hnot

end Outcomes

/-! ## Visits as actions -/

/-- What a solve does to its state. -/
inductive Action (ctx : Context c) (st : SolveState c) : SolveState c → Prop where
  | ran {st' : SolveState c} (h : HintRan ctx st st') : Action ctx st st'
  /-- A gate solves a wire that no call produces. -/
  | settled {w : WireId} {x : Scalar c} {solution : Solution c}
      (hfree : ctx.hints.producer? w = none) (hset : st.solution.set w x = .ok solution) :
      Action ctx st { st with solution }
  | reported {e : Event} (h : e.invocation? = none) :
      Action ctx st { st with trace := st.trace.push e }

theorem Action.extends {ctx : Context c} {st st' : SolveState c} (h : Action ctx st st') :
    st.solution.Extends st'.solution := by
  cases h with
  | ran h => exact h.extends
  | settled hfree hset => exact Solution.extends_of_set hset
  | reported h => exact .refl _

theorem Action.counted {ctx : Context c} {st st' : SolveState c} (h : Action ctx st st')
    (hst : st.solution.Counted) : st'.solution.Counted := by
  cases h with
  | ran h => exact h.counted hst
  | settled hfree hset => exact Solution.counted_of_set hset hst
  | reported h => exact hst

theorem Action.unbegun {ctx : Context c} {calls : List HintCall}
    (hrep : ctx.hints.Represents calls) {st st' : SolveState c} (h : Action ctx st st')
    (hst : Unbegun calls st.solution) : Unbegun calls st'.solution := by
  cases h with
  | ran h => exact h.unbegun hrep hst
  | @settled w x solution hfree hset =>
    show Unbegun calls solution
    intro call hmem u hu hnone
    -- the wire belongs to no call, so all calls see the solution as it was
    have hout := hrep.producer?_eq_none_iff.1 hfree call hmem
    have hkept : ∀ v ∈ call.wires, solution.get? v = st.solution.get? v := by
      intro v hv
      have hne : v ≠ w := fun heq => hout (heq ▸ hv)
      rw [Solution.get?_of_set hset, if_neg hne]
    have hfree := hst call hmem u hu (by rw [← hkept u hu]; exact hnone)
    exact hfree.of_unchanged (Solution.nWires_set hset) hkept
  | reported h => exact hst

section Paths

variable {ctx : Context c} {calls : List HintCall}

theorem extends_of_actions {st st' : SolveState c} (h : ReflTransGen (Action ctx) st st') :
    st.solution.Extends st'.solution := by
  induction h with
  | refl => exact .refl _
  | tail _ hact ih => exact ih.trans hact.extends

theorem follows_of_runs {α : Type} {x : Solving c α}
    (h : Follows (HintRan ctx) (HintStopped ctx) x) :
    Follows (Action ctx) (HintStopped ctx) x :=
  h.mono (fun _ _ => .ran) (fun _ _ h => h)

end Paths

/-- A visit of the gate from `st` comes to a term in the state `mid`. -/
def Gate.Reaches (ctx : Context c) (st : SolveState c) (t : Term) (mid : SolveState c) :
    Gate k → Prop
  | rankOne g => g.assertSet = .ok () ∧
      SearchReaches ctx Place.term (fun _ _ => true) none g.places st t mid
  | sparse g => SearchReaches ctx id (fun a b => a.wire != b.wire) none g.terms st t mid

/-- The gate looks for its unknown and finds it in the wire `w`, in the state `mid`. -/
def Gate.Finds (ctx : Context c) (st mid : SolveState c) (w : WireId) : Gate k → Prop
  | rankOne g => ∃ p, exec (seekUnknown ctx Place.term (fun _ _ => true) none g.places) st =
      (.ok (.one p), mid) ∧ p.term.wire = w
  | sparse g => ∃ t, exec (seekUnknown ctx id (fun a b => a.wire != b.wire) none g.terms) st =
      (.ok (.one t), mid) ∧ t.wire = w

/-- The unknown of a gate is an unsolved wire that no call produces. -/
theorem Gate.Finds.exposed {ctx : Context c} {calls : List HintCall}
    (hrep : ctx.hints.Represents calls) {g : Gate k} {st mid : SolveState c} {w : WireId}
    (h : g.Finds ctx st mid w) : ∃ t, t.wire = w ∧ Exposed ctx mid.solution t := by
  cases g with
  | rankOne g =>
    obtain ⟨p, hseek, hw⟩ := h
    obtain _ | ⟨_, -, -, -, -, hexposed⟩ := sought_rankOne hrep hseek
    exact ⟨p.term, hw, hexposed⟩
  | sparse g =>
    obtain ⟨t, hseek, hw⟩ := h
    obtain _ | ⟨_, -, -, -, -, hexposed⟩ := sought_sparse hrep hseek
    exact ⟨t, hw, hexposed⟩

section Paths

variable {A H : SolveState c → SolveState c → Prop} {ctx : Context c} {st : SolveState c}

theorem path_settle {w : WireId} (hset : ∀ x, Path A H st (exec (Solving.set w x) st))
    (demand : Option (Scalar c × Outcome)) : Path A H st (exec (settle w demand) st) := by
  cases demand with
  | none => exact follows_pure _ st
  | some demand => exact path_bind (hset demand.1) fun _ mid _ => follows_pure _ mid

/-- A visit makes the requests that it comes to, and then it may solve its unknown. -/
theorem path_gate {g : Gate k}
    (hresolve : ∀ t mid, g.Reaches ctx st t mid → Path A H mid (exec (resolve ctx t) mid))
    (hset : ∀ w mid, g.Finds ctx st mid w → ∀ x, Path A H mid (exec (Solving.set w x) mid)) :
    Path A H st (exec (g.solve ctx) st) := by
  cases g with
  | rankOne g =>
    apply path_bind (follows_read _ st)
    intro _ mid₀ hread
    -- this kind asserts that its operands are set before it searches them
    obtain ⟨hoperands, rfl⟩ := exec_read_eq_ok_iff.1 hread
    apply path_bind (path_search fun t mid hreaches => hresolve t mid ⟨hoperands, hreaches⟩)
    intro u mid hseek
    cases u with
    | several => exact follows_pure _ mid
    | none => exact path_bind (follows_read _ mid) fun _ mid' _ => follows_pure _ mid'
    | one p =>
      apply path_bind (follows_read _ mid)
      intro demand mid' hread
      obtain ⟨-, rfl⟩ := exec_read_eq_ok_iff.1 hread
      exact path_settle (hset p.term.wire mid' ⟨p, hseek, rfl⟩) demand
  | sparse g =>
    apply path_bind (path_search hresolve)
    intro u mid hseek
    cases u with
    | several => exact follows_pure _ mid
    | none => exact path_bind (follows_read _ mid) fun _ mid' _ => follows_pure _ mid'
    | one t =>
      apply path_bind (follows_read _ mid)
      intro demand mid' hread
      obtain ⟨-, rfl⟩ := exec_read_eq_ok_iff.1 hread
      exact path_settle (hset t.wire mid' ⟨t, hseek, rfl⟩) demand

/-- A visit does what its hint calls and the wire that it solves do. -/
theorem follows_gate (hresolve : ∀ t, Follows A H (resolve ctx t))
    (hset : ∀ w x, Follows A H (Solving.set w x : Solving c Unit)) (g : Gate k) :
    Follows A H (g.solve ctx) :=
  fun _ => path_gate (fun t mid _ => hresolve t mid) fun w mid _ x => hset w x mid

theorem actions_gate {calls : List HintCall} (hrep : ctx.hints.Represents calls) (g : Gate k) :
    Follows (Action ctx) (HintStopped ctx) (g.solve ctx) := by
  intro st
  apply path_gate
  · intro t mid _
    exact follows_of_runs (follows_resolve ctx t) mid
  · intro w mid hfinds x
    obtain ⟨t, rfl, hexposed⟩ := hfinds.exposed hrep
    exact path_set fun _ hset => .settled hexposed.unproduced hset

end Paths

/-! ## Visits raise errors of hint calls only -/

section Stops

variable {P : SolverError → SolveState c → Prop} {ctx : Context c}

theorem stops_settle (w : WireId) (demand : Option (Scalar c × Outcome)) :
    Stops P (settle w demand) := by
  cases demand with
  | none => exact stops_pure _
  | some demand => exact stops_bind (stops_set w _) fun _ => stops_pure _

/-- A visit stops as its hint calls do. -/
theorem stops_gate (hresolve : ∀ t, Stops P (resolve ctx t)) (g : Gate k) :
    Stops P (g.solve ctx) := by
  cases g with
  | rankOne g =>
    refine stops_bind (stops_read _) fun _ => ?_
    refine stops_bind (stops_seekUnknown hresolve _ _ none g.places) fun u => ?_
    cases u with
    | several => exact stops_pure _
    | none => exact stops_bind (stops_read _) fun _ => stops_pure _
    | one p => exact stops_bind (stops_read _) fun _ => stops_settle _ _
  | sparse g =>
    refine stops_bind (stops_seekUnknown hresolve _ _ none g.terms) fun u => ?_
    cases u with
    | several => exact stops_pure _
    | none => exact stops_bind (stops_read _) fun _ => stops_pure _
    | one p => exact stops_bind (stops_read _) fun _ => stops_settle _ _

end Stops

/-- A visit raises what its hint calls raise. -/
theorem raises_gate {P : SolverError → Prop} {ctx : Context c}
    (hresolve : ∀ t, Raises P (resolve ctx t)) (g : Gate k) : Raises P (g.solve ctx) :=
  raises_iff.2 (stops_gate (fun t => raises_iff.1 (hresolve t)) g)

/-! ## Faults of visits in bounds -/

/-- No operand of the gate is unset. -/
def Gate.OperandsSet : Gate k → Prop
  | rankOne g => g.l.terms ≠ [] ∧ g.r.terms ≠ [] ∧ g.o.terms ≠ []
  | sparse _ => True

instance (g : Gate k) : Decidable g.OperandsSet :=
  match g with
  | .rankOne _ => inferInstanceAs (Decidable (_ ∧ _ ∧ _))
  | .sparse _ => .isTrue trivial

/-- Only a gate with an unset operand is refused. -/
theorem RankOne.assertSet_eq_error {g : RankOne} {f : Fault} (h : g.assertSet = .error f) :
    ¬(Gate.rankOne g).OperandsSet ∧ f = .unsetCombination := by
  unfold assertSet at h
  rcases bind_eq_error_iff.1 h with h | ⟨_, -, h⟩
  · obtain ⟨hnil, hf⟩ := LinearCombination.assertSet_eq_error_iff.1 h
    exact ⟨fun hset => hset.1 hnil, hf⟩
  · rcases bind_eq_error_iff.1 h with h | ⟨_, -, h⟩
    · obtain ⟨hnil, hf⟩ := LinearCombination.assertSet_eq_error_iff.1 h
      exact ⟨fun hset => hset.2.1 hnil, hf⟩
    · obtain ⟨hnil, hf⟩ := LinearCombination.assertSet_eq_error_iff.1 h
      exact ⟨fun hset => hset.2.2 hnil, hf⟩

section Faults

variable {P : Fault → Prop} {ctx : Context c} {calls : List HintCall}

theorem faults_settle {w : WireId} {st : SolveState c} (hlt : w.index < st.solution.nWires)
    (hw : st.solution.get? w = none) (demand : Option (Scalar c × Outcome)) :
    Faults P (settle w demand) st := by
  cases demand with
  | none => exact faults_pure _ st
  | some demand =>
    obtain ⟨x, outcome⟩ := demand
    rw [settle]
    refine faults_bind ?_ ?_
    · intro f habs
      -- the wire exists and has no value yet, so that it can be solved
      obtain ⟨solution, hset⟩ := Solution.exists_set hlt hw x
      have hok : exec (Solving.set w x) st = (.ok (), { st with solution }) :=
        exec_set_eq_ok_iff.2 ⟨solution, hset, rfl⟩
      rw [hok] at habs
      cases habs
    · intro _ mid _
      exact faults_pure _ mid

theorem faults_rankOne {g : RankOne} {st : SolveState c}
    (hctx : ctx.SoundUpTo P calls st.solution.nWires) (hst : Unbegun calls st.solution)
    (hset : (Gate.rankOne g).OperandsSet ∨ P .unsetCombination)
    (hbounds : (Gate.rankOne g).InBounds ctx.table st.solution.nWires) :
    Faults P (g.solve ctx) st := by
  unfold RankOne.solve
  refine faults_bind ?_ ?_
  · refine faults_read ?_
    -- the assertion is there for unset operands, which are excluded or allowed for
    intro f hassert
    obtain ⟨hunset, rfl⟩ := RankOne.assertSet_eq_error hassert
    exact hset.resolve_left hunset
  · intro _ mid hread
    obtain ⟨-, rfl⟩ := exec_read_eq_ok_iff.1 hread
    refine faults_bind ?_ ?_
    · apply faults_seekUnknown hctx hst
      intro p hp
      exact hbounds.1 _ (RankOne.term_mem_terms hp)
    · intro u mid' hseek
      have hcoeffs : ∀ t ∈ g.terms, t.coeff.index < ctx.table.size := fun t ht =>
        (hbounds.1 t ht).1
      have hsought := sought_rankOne hctx.represents hseek
      cases hsought with
      | several => exact faults_pure _ mid'
      | none _ _ hknown =>
        have hterms := RankOne.forall_mem_terms hknown
        -- every term is known, so that the check comes to an answer
        have hholds := (RankOne.holds_eq_ok_iff (Solution.agrees_complete mid'.solution)).2
          ⟨fun t ht => ⟨hcoeffs t ht, hterms t ht⟩, rfl⟩
        exact faults_bind (faults_read_of_ok ⟨_, hholds⟩) fun _ _ _ => faults_pure _ _
      | one p horigin _ hknown _ hexposed =>
        have hp := horigin.resolve_right (Option.some_ne_none _).symm
        -- all terms are known but one, so that what is demanded of it can be computed
        obtain ⟨demand, hdemand⟩ :=
          RankOne.exists_isolate hp hexposed.isOpen hcoeffs hknown
        refine faults_bind (faults_read_of_ok ⟨_, hdemand⟩) ?_
        intro demand' mid'' hread
        obtain ⟨-, rfl⟩ := exec_read_eq_ok_iff.1 hread
        exact faults_settle hexposed.isOpen.lt hexposed.isOpen.unsolved demand'

theorem faults_sparse {g : SparseGate} {st : SolveState c}
    (hctx : ctx.SoundUpTo P calls st.solution.nWires) (hst : Unbegun calls st.solution)
    (hbounds : (Gate.sparse g).InBounds ctx.table st.solution.nWires) :
    Faults P (g.solve ctx) st := by
  unfold SparseGate.solve
  refine faults_bind ?_ ?_
  · exact faults_seekUnknown hctx hst hbounds.1
  · intro u mid hseek
    have hext := extends_of_runs ((follows_seekUnknown ctx _ _ none g.terms).ok hseek)
    have hk : g.k.index < ctx.table.size := hbounds.2 g.k (by simp [Gate.extraCoefficients])
    have hsought := sought_sparse hctx.represents hseek
    cases hsought with
    | several => exact faults_pure _ mid
    | none _ _ hknown =>
      have hresidual := (SparseGate.residualOf_eq_ok_iff (g := g)
        (Solution.agrees_complete mid.solution)).2
          ⟨fun t ht => ⟨(hbounds.1 t ht).1, hknown t ht⟩, hk, rfl⟩
      exact faults_bind (faults_read_of_ok ⟨_, hresidual⟩) fun _ _ _ => faults_pure _ _
    | one t horigin _ hknown _ hexposed =>
      have hopen : ∀ u ∈ g.terms, mid.solution.Open u → u.wire = t.wire := fun u hu hop =>
        (hknown u hu).resolve_left hop.not_known
      -- every term is known or open, whether or not it is the one found
      have hready : ∀ u ∈ g.terms, u.coeff.index < ctx.table.size ∧
          (mid.solution.Known u ∨ mid.solution.Open u) := by
        intro u hu
        have hu' := hbounds.1 u hu
        rw [← hext.nWires_eq] at hu'
        refine ⟨hu'.1, ?_⟩
        obtain ⟨b, hb⟩ := Solution.exists_isKnown hu'
        cases b with
        | true => exact .inl (Solution.isKnown_true_iff.1 hb)
        | false => exact .inr (Solution.isKnown_false_iff.1 hb)
      obtain ⟨demand, hdemand⟩ :=
        SparseGate.exists_isolate hexposed.isOpen.unsolved hopen hready hk
      refine faults_bind (faults_read_of_ok ⟨demand, hdemand⟩) ?_
      intro demand' mid' hread
      obtain ⟨-, rfl⟩ := exec_read_eq_ok_iff.1 hread
      exact faults_settle hexposed.isOpen.lt hexposed.isOpen.unsolved demand'

theorem faults_gate {g : Gate k} {st : SolveState c}
    (hctx : ctx.SoundUpTo P calls st.solution.nWires) (hst : Unbegun calls st.solution)
    (hset : g.OperandsSet ∨ P .unsetCombination)
    (hbounds : g.InBounds ctx.table st.solution.nWires) : Faults P (g.solve ctx) st := by
  cases g with
  | rankOne g => exact faults_rankOne hctx hst hset hbounds
  | sparse g => exact faults_sparse hctx hst hbounds

end Faults

end CircuitWitness
