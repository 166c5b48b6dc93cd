import CircuitWitness.Proofs.Solver.Hintless
import CircuitWitness.Proofs.Solver.Scan

/-! # What a gate determines

    A gate whose open wires no call produces is settled by the solution as it stands.
    Which of its wires are unknown decides what happens (`Settles`).  Without an unknown
    the gate is checked.  With one it is solved for it, and the value is the only one for
    which the gate holds, or zero if the gate does not depend on it.  With several it is
    left alone.

    A rank-one gate counts the open terms, so that a wire that occurs twice is two unknowns.
    A sparse gate counts the open wires, and the square of a wire is too much as well.
-/

namespace CircuitWitness

open Solving

variable {c : Curve} {k : Kind}

/-- What becomes of a solution by a gate that holds under certain valuations, with these
    wires unknown. -/
inductive Settles (s : Solution c) (holds : Valuation c → Prop) :
    Unknowns WireId → Outcome → Solution c → Prop where
  /-- All wires are known and the gate holds. -/
  | met (h : ∀ v, Valuation.Agrees v s → holds v) : Settles s holds .none .satisfied s
  /-- All wires are known and the gate does not hold. -/
  | violated (h : ∀ v, Valuation.Agrees v s → ¬holds v) : Settles s holds .none .unsatisfied s
  /-- The gate holds for one value of the unknown. -/
  | unique {w : WireId} {x : Scalar c} {t : Solution c} (hset : s.set w x = .ok t)
      (h : ∀ v, Valuation.Agrees v s → (holds v ↔ v w = x)) : Settles s holds (.one w) .satisfied t
  /-- The gate holds for every value of the unknown. -/
  | free {w : WireId} {t : Solution c} (hset : s.set w 0 = .ok t)
      (h : ∀ v, Valuation.Agrees v s → holds v) : Settles s holds (.one w) .satisfied t
  /-- The gate holds for no value of the unknown. -/
  | never {w : WireId} {t : Solution c} (hset : s.set w 0 = .ok t)
      (h : ∀ v, Valuation.Agrees v s → ¬holds v) : Settles s holds (.one w) .unsatisfied t
  /-- There are several unknowns. -/
  | stuck : Settles s holds .several .unsolvable s

section Settles

variable {s t : Solution c} {holds : Valuation c → Prop} {w : WireId}

theorem Settles.of_check {b : Bool} (h : ∀ v, Valuation.Agrees v s → (b = true ↔ holds v)) :
    Settles s holds .none (.ofBool b) s := by
  cases b with
  | true => exact .met fun v hv => (h v hv).1 rfl
  | false => exact .violated fun v hv habs => Bool.noConfusion ((h v hv).2 habs)

/-- A gate that is affine in its unknown is settled by a zero of the affine function. -/
theorem Settles.of_affine {α β x : Scalar c} {outcome : Outcome} (hset : s.set w x = .ok t)
    (haffine : ∀ v, Valuation.Agrees v s → (holds v ↔ α * v w + β = 0))
    (h : SolvesAffine α β x outcome) : Settles s holds (.one w) outcome t := by
  cases h with
  | unique hslope hzero =>
    refine .unique hset ?_
    intro v hv
    rw [haffine v hv]
    constructor
    · intro hvzero
      -- two solutions of an affine equation differ by a root of the slope
      have hsame : α * (v w - x) = 0 := by linear_combination hvzero - hzero
      exact sub_eq_zero.1 ((mul_eq_zero.1 hsame).resolve_left hslope)
    · intro hx
      rw [hx, hzero]
  | free hslope hzero =>
    refine .free hset ?_
    intro v hv
    rw [haffine v hv, hslope, hzero, zero_mul, zero_add]
  | never hslope hzero =>
    refine .never hset ?_
    intro v hv
    rw [haffine v hv, hslope, zero_mul, zero_add]
    exact hzero

/-- A gate that depends on its unknown gives it the value for which the gate holds. -/
theorem Settles.solved {outcome : Outcome} (h : Settles s holds (.one w) outcome t)
    {v u : Valuation c} (hv : v.Agrees s) (hu : u.Agrees s) (hholds : holds v)
    (hfails : ¬holds u) : outcome = .satisfied ∧ t.get? w = some (v w) := by
  cases h with
  | unique hset h =>
    refine ⟨rfl, ?_⟩
    rw [Solution.get?_of_set hset, if_pos rfl, (h v hv).1 hholds]
  | free hset h => exact absurd (h u hu) hfails
  | never hset h => exact absurd hholds (h v hv)

end Settles

theorem exec_settle_some {st : SolveState c} {solution : Solution c} {w : WireId} {x : Scalar c}
    (hset : st.solution.set w x = .ok solution) (outcome : Outcome) :
    exec (settle w (some (x, outcome))) st = (.ok outcome, { st with solution }) := by
  rw [settle, exec_bind, exec_set_of_ok hset]
  rfl

/-- No call can be asked for a wire of the gate. -/
def Gate.Idle (ctx : Context c) (s : Solution c) (g : Gate k) : Prop :=
  ∀ t ∈ g.terms, ctx.Idle s t

instance (ctx : Context c) (s : Solution c) (g : Gate k) : Decidable (g.Idle ctx s) :=
  inferInstanceAs (Decidable (∀ _ ∈ _, _))

/-! ## Rank-one gates -/

namespace RankOne

/-- The product of the factors is the output. -/
def Holds (table : CoefficientTable c) (g : RankOne) (v : Valuation c) : Prop :=
  denoteSum table v g.l.terms * denoteSum table v g.r.terms = denoteSum table v g.o.terms

instance (table : CoefficientTable c) (g : RankOne) (v : Valuation c) :
    Decidable (g.Holds table v) :=
  inferInstanceAs (Decidable (_ = _))

theorem holds_iff {table : CoefficientTable c} {g : RankOne} {v : Valuation c} :
    g.Holds table v ↔ (Gate.rankOne g).denote table v = 0 := sub_eq_zero.symm

/-- The wires of the open terms of the gate, one for each term. -/
def unknowns (s : Solution c) (g : RankOne) : Unknowns WireId :=
  .ofList ((g.terms.filter s.isOpen).map Term.wire)

theorem unknowns_eq (s : Solution c) (g : RankOne) :
    g.unknowns s =
      (scan (fun _ _ => true) none (g.places.filter fun p => s.isOpen p.term)).map
        fun p => p.term.wire := by
  rw [unknowns, ← map_term_places, List.filter_map, List.map_map, scan_of_always,
    Unknowns.map_ofList]
  rfl

theorem assertSet_eq_ok {g : RankOne} (h : (Gate.rankOne g).OperandsSet) :
    g.assertSet = .ok () := by
  obtain ⟨hl, hr, ho⟩ := h
  simp only [assertSet, check_bind_eq_ok_iff, LinearCombination.assertSet_eq_ok_iff]
  exact ⟨hl, hr, ho⟩

section Settles

variable {table : CoefficientTable c} {s : Solution c} {g : RankOne}

/-- A gate without an unknown is checked. -/
theorem settles_checked (hcoeffs : ∀ t ∈ g.terms, t.coeff.index < table.size)
    (hknown : ∀ t ∈ g.terms, s.Known t) :
    ∃ b, g.holds table s = .ok b ∧ Settles s (g.Holds table) .none (.ofBool b) s := by
  have hready := fun t ht => And.intro (hcoeffs t ht) (hknown t ht)
  -- whether the gate holds is the same under every valuation, so take the completed solution
  have hholds := (holds_eq_ok_iff s.agrees_complete).2 ⟨hready, rfl⟩
  refine ⟨_, hholds, .of_check ?_⟩
  intro v hv
  have hb := ((holds_eq_ok_iff hv).1 hholds).2
  rw [← hb, decide_eq_true_iff, holds_iff]

/-- A gate is solved for the unknown at its one open place. -/
theorem settles_isolated {p : Place} (hp : p ∈ g.places) (hopen : s.Open p.term)
    (hcoeffs : ∀ t ∈ g.terms, t.coeff.index < table.size)
    (hknown : ∀ q ∈ g.places, s.Known q.term ∨ q = p) :
    ∃ x outcome solution, g.isolate table s p = .ok (some (x, outcome)) ∧
      s.set p.term.wire x = .ok solution ∧
      Settles s (g.Holds table) (.one p.term.wire) outcome solution := by
  obtain ⟨⟨x, outcome⟩, hisolate⟩ := exists_isolate hp hopen hcoeffs hknown
  obtain ⟨α, β, haffine, hsolves, -⟩ := isolate_spec hp hopen.real hisolate
  obtain ⟨solution, hset⟩ := Solution.exists_set hopen.lt hopen.unsolved x
  refine ⟨x, outcome, solution, hisolate, hset, .of_affine hset ?_ hsolves⟩
  intro v hv
  rw [holds_iff, haffine v hv]

end Settles

end RankOne

open RankOne in
/-- A rank-one gate is settled by its open terms. -/
theorem rankOne_settles {ctx : Context c} {st : SolveState c} {g : RankOne}
    (hset : (Gate.rankOne g).OperandsSet)
    (hbounds : (Gate.rankOne g).InBounds ctx.table st.solution.nWires)
    (hidle : (Gate.rankOne g).Idle ctx st.solution) :
    ∃ outcome solution, exec (g.solve ctx) st = (.ok outcome, { st with solution }) ∧
      Settles st.solution (g.Holds ctx.table) (g.unknowns st.solution) outcome solution := by
  have hterms : ∀ p ∈ g.places, p.term.InRange st.solution.nWires := fun p hp =>
    (hbounds.1 _ (term_mem_terms hp)).2
  have hseek := exec_seekUnknown_of_idle (fun _ _ => true) hterms
    (fun p hp => hidle _ (term_mem_terms hp)) none
  have hcoeffs : ∀ t ∈ g.terms, t.coeff.index < ctx.table.size := fun t ht => (hbounds.1 t ht).1
  -- what the scan of the open places finds is what the wires of the open terms are
  rw [unknowns_eq]
  unfold solve
  simp only [exec_bind, exec_read, assertSet_eq_ok hset, Except.mapError, hseek]
  cases hscan : scan (fun _ _ => true) none
      (g.places.filter fun p => st.solution.isOpen p.term) with
  | several => exact ⟨_, _, rfl, .stuck⟩
  | none =>
    rw [scan_of_always, Unknowns.ofList_eq_none_iff, List.filter_eq_nil_iff] at hscan
    have hknown : ∀ t ∈ g.terms, st.solution.Known t := forall_mem_terms fun p hp =>
      Solution.known_of_isOpen_eq_false (hterms p hp) (by simpa using hscan p hp)
    obtain ⟨b, hholds, hsettles⟩ := settles_checked hcoeffs hknown
    refine ⟨_, _, ?_, hsettles⟩
    rw [exec_bind, exec_read, hholds]
    rfl
  | one p =>
    rw [scan_of_always, Unknowns.ofList_eq_one_iff] at hscan
    have hmem : ∀ q, q ∈ g.places.filter (fun p => st.solution.isOpen p.term) ↔ q = p := by
      intro q
      rw [hscan, List.mem_singleton]
    obtain ⟨hp, hopen⟩ := List.mem_filter.1 ((hmem p).2 rfl)
    have hknown : ∀ q ∈ g.places, st.solution.Known q.term ∨ q = p := by
      intro q hq
      cases hq' : st.solution.isOpen q.term with
      | true => exact .inr ((hmem q).1 (List.mem_filter.2 ⟨hq, hq'⟩))
      | false => exact .inl (Solution.known_of_isOpen_eq_false (hterms q hq) hq')
    obtain ⟨x, outcome, solution, hisolate, hsolution, hsettles⟩ :=
      settles_isolated hp ((Solution.isOpen_iff (hterms p hp)).1 hopen) hcoeffs hknown
    refine ⟨outcome, solution, ?_, hsettles⟩
    rw [exec_bind, exec_read, hisolate]
    exact exec_settle_some hsolution outcome

/-- The wires `1`, `y` and `z` are solved, and the second wire is not. -/
def SolveState.missing (y z : Scalar .bn254) : SolveState .bn254 :=
  ⟨⟨#[1, 0, y, z], #[true, false, true, true], 3, rfl⟩, default, #[]⟩

/-- The constants that every table holds, and a call that produces the second wire of three. -/
def Context.reserved : Context .bn254 :=
  ⟨.new, ⟨[]⟩, ⟨[(⟨2⟩, ⟨⟨7⟩, [], [⟨2⟩]⟩)]⟩⟩

/-- An internal wire times a reserved constant. -/
def Term.internal (k : CoeffId) (i : Nat) : Term := ⟨k, ⟨i⟩, .internal⟩

/-- `(2 ⋅ x + 1) ⋅ y = z`, with a term of `x` that has no weight. -/
def RankOne.sample : RankOne :=
  ⟨⟨[.internal .two 1, .constant .one]⟩, ⟨[.internal .one 2]⟩,
    ⟨[.internal .one 3, .internal .zero 1]⟩⟩

theorem agrees_missing (x y z : Scalar .bn254) :
    (valuation #[1, x, y, z]).Agrees (SolveState.missing y z).solution := by
  rintro ⟨i⟩ a ha
  match i with
  | 0 => exact Option.some.inj ha
  | 1 => cases ha
  | 2 => exact Option.some.inj ha
  | 3 => exact Option.some.inj ha
  | i + 4 => cases ha

/-- `(2 ⋅ x + 1) ⋅ 5 = 45` gives `4`. -/
theorem rankOne_settles_sample :
    ∃ solution, exec (RankOne.sample.solve .reserved) (.missing 5 45) =
        (.ok .satisfied, { SolveState.missing 5 45 with solution }) ∧
      solution.get? ⟨1⟩ = some 4 := by
  have hset : (Gate.rankOne .sample).OperandsSet := by decide
  have hbounds : (Gate.rankOne .sample).InBounds Context.reserved.table
      (SolveState.missing 5 45).solution.nWires := by decide
  have hidle : (Gate.rankOne .sample).Idle .reserved (SolveState.missing 5 45).solution := by
    decide
  obtain ⟨outcome, solution, hexec, hsettles⟩ := rankOne_settles hset hbounds hidle
  have hunknowns : RankOne.sample.unknowns (SolveState.missing 5 45).solution = .one ⟨1⟩ := rfl
  rw [hunknowns] at hsettles
  obtain ⟨rfl, hx⟩ := hsettles.solved (agrees_missing 4 5 45) (agrees_missing 0 5 45)
    (by decide) (by decide)
  exact ⟨solution, hexec, hx⟩

/-! ## Sparse gates -/

namespace SparseGate

/-- The open wires of the gate.  The square of a wire counts as several. -/
def unknowns (s : Solution c) (g : SparseGate) : Unknowns WireId :=
  if s.isOpen g.m₀ ∧ s.isOpen g.m₁ ∧ g.m₀.wire = g.m₁.wire then .several
  else .ofList ((g.terms.filter s.isOpen).map Term.wire).dedup

section Settles

variable {table : CoefficientTable c} {s : Solution c} {g : SparseGate} {w : WireId}

/-- A gate without an unknown is checked. -/
theorem settles_checked (hcoeffs : ∀ t ∈ g.terms, t.coeff.index < table.size)
    (hk : g.k.index < table.size) (hknown : ∀ t ∈ g.terms, s.Known t) :
    ∃ x, g.residualOf table s = .ok x ∧
      Settles s (fun v => (Gate.sparse g).denote table v = 0) .none (.ofBool (x == 0)) s := by
  have hready := fun t ht => And.intro (hcoeffs t ht) (hknown t ht)
  have hresidual := (residualOf_eq_ok_iff (g := g) s.agrees_complete).2 ⟨hready, hk, rfl⟩
  refine ⟨_, hresidual, .of_check ?_⟩
  intro v hv
  rw [beq_iff_eq, ((residualOf_eq_ok_iff hv).1 hresidual).2.2]

/-- The square of an unknown is not isolated. -/
theorem isolate_of_square (hopen : ∀ t ∈ g.terms, s.Open t → t.wire = w) (h₀ : s.Open g.m₀)
    (h₁ : s.Open g.m₁) : g.isolate table s w = .ok none := by
  have hholds : ∀ t ∈ g.terms, s.Open t → holdsUnknown s w t = .ok true := fun t ht hop =>
    holdsUnknown_eq_ok_iff.2 (.inr ⟨hop, by simp [hopen t ht hop]⟩)
  unfold isolate
  rw [hholds _ (by simp [terms]) h₀, hholds _ (by simp [terms]) h₁]
  rfl

/-- A gate is solved for its one open wire, unless that is squared. -/
theorem settles_isolated (hlt : w.index < s.nWires) (hw : s.get? w = none)
    (hopen : ∀ t ∈ g.terms, s.Open t → t.wire = w)
    (hready : ∀ t ∈ g.terms, t.coeff.index < table.size ∧ (s.Known t ∨ s.Open t))
    (hk : g.k.index < table.size) (hlinear : ¬(s.Open g.m₀ ∧ s.Open g.m₁)) :
    ∃ x outcome solution, g.isolate table s w = .ok (some (x, outcome)) ∧
      s.set w x = .ok solution ∧
      Settles s (fun v => (Gate.sparse g).denote table v = 0) (.one w) outcome solution := by
  obtain ⟨demand, hisolate⟩ := exists_isolate hw hopen hready hk
  -- what is not isolated has the unknown in both factors
  cases demand with
  | none => exact absurd (open_of_isolate_eq_none hisolate) hlinear
  | some demand =>
    obtain ⟨x, outcome⟩ := demand
    obtain ⟨α, β, haffine, hsolves, -⟩ := isolate_spec hw hopen hisolate
    obtain ⟨solution, hset⟩ := Solution.exists_set hlt hw x
    refine ⟨x, outcome, solution, hisolate, hset, .of_affine hset ?_ hsolves⟩
    intro v hv
    rw [haffine v hv]

end Settles

end SparseGate

open SparseGate in
/-- A sparse gate is settled by its open wires. -/
theorem sparse_settles {ctx : Context c} {st : SolveState c} {g : SparseGate}
    (hbounds : (Gate.sparse g).InBounds ctx.table st.solution.nWires)
    (hidle : (Gate.sparse g).Idle ctx st.solution) :
    ∃ outcome solution, exec (g.solve ctx) st = (.ok outcome, { st with solution }) ∧
      Settles st.solution (fun v => (Gate.sparse g).denote ctx.table v = 0)
        (g.unknowns st.solution) outcome solution := by
  have hterms : ∀ t ∈ g.terms, t.InRange st.solution.nWires := fun t ht => (hbounds.1 t ht).2
  have hcoeffs : ∀ t ∈ g.terms, t.coeff.index < ctx.table.size := fun t ht => (hbounds.1 t ht).1
  have hk : g.k.index < ctx.table.size := hbounds.2 g.k (by simp [Gate.extraCoefficients])
  have hopen := fun t ht => Solution.isOpen_iff (hterms t ht)
  have hm₀ : g.m₀ ∈ g.terms := by simp [terms]
  have hm₁ : g.m₁ ∈ g.terms := by simp [terms]
  have hseek := exec_seekUnknown_of_idle (fun a b : Term => a.wire != b.wire) (f := id) hterms
    hidle none
  have hwires : (scan (fun a b : Term => a.wire != b.wire) none
      (g.terms.filter st.solution.isOpen)).map Term.wire = _ := map_scan (fun _ _ => rfl) _
  unfold solve unknowns
  simp only [exec_bind, hseek, id]
  rw [← hwires]
  cases hscan : scan (fun a b : Term => a.wire != b.wire) none
      (g.terms.filter st.solution.isOpen) with
  | several =>
    -- two wires differ, whether or not the product is a square
    refine ⟨_, _, rfl, ?_⟩
    split
    · exact .stuck
    · exact .stuck
  | none =>
    rw [hscan, Unknowns.map, eq_comm, Unknowns.ofList_eq_none_iff, List.dedup_eq_nil,
      List.map_eq_nil_iff, List.filter_eq_nil_iff] at hwires
    have hknown : ∀ t ∈ g.terms, st.solution.Known t := fun t ht =>
      Solution.known_of_isOpen_eq_false (hterms t ht) (by simpa using hwires t ht)
    obtain ⟨x, hresidual, hsettles⟩ := settles_checked hcoeffs hk hknown
    rw [if_neg fun hsquare => hwires _ hm₀ hsquare.1]
    refine ⟨_, _, ?_, hsettles⟩
    rw [exec_bind, exec_read, hresidual]
    rfl
  | one t =>
    have hmem := (mem_of_scan_eq_one hscan).resolve_right (Option.some_ne_none t).symm
    obtain ⟨ht, hopent⟩ := List.mem_filter.1 hmem
    obtain ⟨-, -, hlt, hunsolved⟩ := (hopen t ht).1 hopent
    rw [hscan, Unknowns.map, eq_comm, Unknowns.ofList_eq_one_iff] at hwires
    -- an open term with another wire would have clashed
    have hother : ∀ u ∈ g.terms, st.solution.Open u → u.wire = t.wire := by
      intro u hu hopenu
      have hwire : u.wire ∈ ((g.terms.filter st.solution.isOpen).map Term.wire).dedup :=
        List.mem_dedup.2 (List.mem_map_of_mem (List.mem_filter.2 ⟨hu, (hopen u hu).2 hopenu⟩))
      rw [hwires] at hwire
      exact List.mem_singleton.1 hwire
    simp only [exec_bind, exec_read]
    by_cases hsquare : st.solution.isOpen g.m₀ ∧ st.solution.isOpen g.m₁ ∧ g.m₀.wire = g.m₁.wire
    · rw [if_pos hsquare, isolate_of_square hother ((hopen _ hm₀).1 hsquare.1)
        ((hopen _ hm₁).1 hsquare.2.1)]
      exact ⟨_, _, rfl, .stuck⟩
    · have hlinear : ¬(st.solution.Open g.m₀ ∧ st.solution.Open g.m₁) := by
        rintro ⟨h₀, h₁⟩
        refine hsquare ⟨(hopen _ hm₀).2 h₀, (hopen _ hm₁).2 h₁, ?_⟩
        rw [hother _ hm₀ h₀, hother _ hm₁ h₁]
      obtain ⟨x, outcome, solution, hisolate, hset, hsettles⟩ :=
        settles_isolated hlt hunsolved hother
          (fun u hu => ⟨hcoeffs u hu, Solution.known_or_open (hterms u hu)⟩) hk hlinear
      rw [if_neg hsquare, hisolate]
      exact ⟨outcome, solution, exec_settle_some hset outcome, hsettles⟩

/-- `2 ⋅ x - z + x ⋅ y = 0`. -/
def SparseGate.sample : SparseGate :=
  ⟨.internal .two 1, .internal .minusOne 3, .constant .zero, .internal .one 1, .internal .one 2,
    .zero⟩

/-- `2 ⋅ x - 20 + x ⋅ 3 = 0` gives `4`. -/
theorem sparse_settles_sample :
    ∃ solution, exec (SparseGate.sample.solve .reserved) (.missing 3 20) =
        (.ok .satisfied, { SolveState.missing 3 20 with solution }) ∧
      solution.get? ⟨1⟩ = some 4 := by
  have hbounds : (Gate.sparse .sample).InBounds Context.reserved.table
      (SolveState.missing 3 20).solution.nWires := by decide
  have hidle : (Gate.sparse .sample).Idle .reserved (SolveState.missing 3 20).solution := by
    decide
  obtain ⟨outcome, solution, hexec, hsettles⟩ := sparse_settles hbounds hidle
  have hunknowns : SparseGate.sample.unknowns (SolveState.missing 3 20).solution = .one ⟨1⟩ := rfl
  rw [hunknowns] at hsettles
  obtain ⟨rfl, hx⟩ := hsettles.solved (agrees_missing 4 3 20) (agrees_missing 0 3 20)
    (by decide) (by decide)
  exact ⟨solution, hexec, hx⟩

end CircuitWitness
