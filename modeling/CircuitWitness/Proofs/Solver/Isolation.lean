import CircuitWitness.Proofs.Solver.Knowledge
import CircuitWitness.Solver.RankOne
import CircuitWitness.Solver.Sparse
import Mathlib.Tactic.LinearCombination

/-! # Isolating the unknown

    A gate with one unknown is affine in it: under every valuation that agrees
    with the solution its value is `α ⋅ x + β`, where `x` is the value of the
    unknown wire.  The isolating formulas find the zero of this function if it
    has one (`SolvesAffine`).  If `α` is zero the wire is set to zero; if `β` is
    zero as well, the gate would hold for every value of the wire.
-/

namespace CircuitWitness

variable {c : Curve}

/-- What a value and an outcome say about `α ⋅ x + β = 0`. -/
inductive SolvesAffine (α β : Scalar c) : Scalar c → Outcome → Prop where
  /-- The value is the only solution. -/
  | unique {x : Scalar c} (hslope : α ≠ 0) (hzero : α * x + β = 0) : SolvesAffine α β x .satisfied
  /-- Every value is a solution. -/
  | free (hslope : α = 0) (hzero : β = 0) : SolvesAffine α β 0 .satisfied
  /-- There is no solution. -/
  | never (hslope : α = 0) (hzero : β ≠ 0) : SolvesAffine α β 0 .unsatisfied

/-- Without a slope the constant decides. -/
theorem SolvesAffine.of_slope_eq_zero {α β : Scalar c} (hslope : α = 0) :
    SolvesAffine α β 0 (.ofBool (β == 0)) := by
  by_cases hzero : β = 0
  · have hout : Outcome.ofBool (β == 0) = .satisfied := by simp [Outcome.ofBool, hzero]
    rw [hout]
    exact .free hslope hzero
  · have hout : Outcome.ofBool (β == 0) = .unsatisfied := by simp [Outcome.ofBool, hzero]
    rw [hout]
    exact .never hslope hzero

/-- The outcome tells whether the value is a solution. -/
theorem SolvesAffine.satisfied_iff {α β x : Scalar c} {outcome : Outcome}
    (h : SolvesAffine α β x outcome) : outcome = .satisfied ↔ α * x + β = 0 := by
  cases h with
  | unique hslope hzero => simp [hzero]
  | free hslope hzero => simp [hzero]
  | never hslope hzero => simp [hzero]

/-- The slope and the constant determine the value and the outcome. -/
theorem SolvesAffine.unique_demand {α β x y : Scalar c} {outcome outcome' : Outcome}
    (h : SolvesAffine α β x outcome) (h' : SolvesAffine α β y outcome') :
    x = y ∧ outcome = outcome' := by
  -- the outcomes differ in whether the slope and the rest are zero, so both are the same one
  cases h with
  | unique hslope hzero =>
    cases h' with
    | unique _ hzero' =>
      have hsame : α * (x - y) = 0 := by linear_combination hzero - hzero'
      exact ⟨sub_eq_zero.1 ((mul_eq_zero.1 hsame).resolve_left hslope), rfl⟩
    | free habs => exact absurd habs hslope
    | never habs => exact absurd habs hslope
  | free hslope hzero =>
    cases h' with
    | unique habs => exact absurd hslope habs
    | free => exact ⟨rfl, rfl⟩
    | never _ habs => exact absurd hzero habs
  | never hslope hzero =>
    cases h' with
    | unique habs => exact absurd hslope habs
    | free _ habs => exact absurd habs hzero
    | never => exact ⟨rfl, rfl⟩

/-- If the slope is not zero or the constant is not, then no other value is a
    solution, and the outcome tells whether there is one. -/
theorem SolvesAffine.forced {α β x y : Scalar c} {outcome : Outcome}
    (h : SolvesAffine α β x outcome) (hpinned : α = 0 → β ≠ 0) (hy : α * y + β = 0) :
    outcome = .satisfied ∧ y = x := by
  cases h with
  | unique hslope hzero =>
    have hsame : α * (y - x) = 0 := by linear_combination hy - hzero
    rcases mul_eq_zero.1 hsame with habs | hdiff
    · exact absurd habs hslope
    · exact ⟨rfl, sub_eq_zero.1 hdiff⟩
  | free hslope hzero => exact absurd hzero (hpinned hslope)
  | never hslope hzero =>
    rw [hslope, zero_mul, zero_add] at hy
    exact absurd hy hzero

/-! ## Rank-one gates -/

theorem Operand.forall_iff {P : Operand → Prop} : (∀ x, P x) ↔ P .l ∧ P .r ∧ P .o := by
  constructor
  · exact fun h => ⟨h .l, h .r, h .o⟩
  · rintro ⟨hl, hr, ho⟩ x
    cases x with
    | l => exact hl
    | r => exact hr
    | o => exact ho

namespace RankOne

/-- The unknown stands in a factor, the other factor is zero, and so is the
    output: the gate holds for every value of the unknown. -/
inductive LeavesFree (table : CoefficientTable c) (s : Solution c) (g : RankOne) (p : Place) :
    Prop where
  | l (hplace : p.operand = .l) (hother : sumTerms (s.computeTerm table) g.r.terms = .ok 0)
      (houtput : sumTerms (s.computeTerm table) g.o.terms = .ok 0)
  | r (hplace : p.operand = .r) (hother : sumTerms (s.computeTerm table) g.l.terms = .ok 0)
      (houtput : sumTerms (s.computeTerm table) g.o.terms = .ok 0)

theorem mem_terms_iff {g : RankOne} {t : Term} :
    t ∈ g.terms ↔ ∃ x, t ∈ (g.operand x).terms := by
  unfold terms
  rw [List.mem_append, List.mem_append]
  constructor
  · intro h
    rcases h with (h | h) | h
    · exact ⟨.l, h⟩
    · exact ⟨.r, h⟩
    · exact ⟨.o, h⟩
  · intro ⟨x, h⟩
    cases x with
    | l => exact .inl (.inl h)
    | r => exact .inl (.inr h)
    | o => exact .inr h

theorem mem_places_iff {g : RankOne} {p : Place} :
    p ∈ g.places ↔ (g.operand p.operand).terms[p.position]? = some p.term := by
  -- a place is listed under the operand that it is in
  have hone : ∀ x, p ∈ g.operandPlaces x ↔
      x = p.operand ∧ (g.operand x).terms[p.position]? = some p.term := by
    intro x
    unfold operandPlaces
    rw [List.mem_map]
    constructor
    · intro ⟨⟨t, i⟩, hmem, hp⟩
      subst hp
      exact ⟨rfl, List.mem_zipIdx_iff_getElem?.1 hmem⟩
    · intro ⟨hx, hget⟩
      exact ⟨(p.term, p.position), List.mem_zipIdx_iff_getElem?.2 hget, by rw [hx]⟩
  unfold places
  rw [List.mem_append, List.mem_append, hone, hone, hone]
  cases p.operand with
  | l => simp
  | r => simp
  | o => simp

/-- The places hold the terms in visiting order. -/
theorem map_term_places (g : RankOne) : g.places.map Place.term = g.terms := by
  have hone : ∀ x, (g.operandPlaces x).map Place.term = (g.operand x).terms := by
    intro x
    rw [operandPlaces, List.map_map]
    exact List.zipIdx_map_fst 0 _
  rw [places, List.map_append, List.map_append, hone, hone, hone]
  rfl

theorem exists_place {g : RankOne} {x : Operand} {t : Term} (h : t ∈ (g.operand x).terms) :
    ∃ i, ⟨x, i, t⟩ ∈ g.places := by
  obtain ⟨i, hi⟩ := List.mem_iff_getElem?.1 h
  exact ⟨i, mem_places_iff.2 hi⟩

theorem term_mem_terms {g : RankOne} {p : Place} (h : p ∈ g.places) : p.term ∈ g.terms :=
  mem_terms_iff.2 ⟨p.operand, List.mem_of_getElem? (mem_places_iff.1 h)⟩

/-- What holds of the terms of all places holds of all terms. -/
theorem forall_mem_terms {g : RankOne} {P : Term → Prop} (h : ∀ p ∈ g.places, P p.term) :
    ∀ t ∈ g.terms, P t := by
  intro t ht
  obtain ⟨x, ht⟩ := mem_terms_iff.1 ht
  obtain ⟨i, hi⟩ := exists_place ht
  exact h _ hi

section Isolate

variable {table : CoefficientTable c} {s : Solution c} {g : RankOne} {p : Place}

/-- A factor times the other is linear in the unknown of the factor. -/
theorem solveFactor_spec {k kInverse rest other o : Scalar c} (hk : k * kInverse = 1) :
    SolvesAffine (k * other) (rest * other - o) (solveFactor kInverse rest other o).1
      (solveFactor kInverse rest other o).2 := by
  unfold solveFactor
  cases hinv : other.inverse? with
  | some i =>
    have hother := Scalar.inverse?_eq_some_iff.1 hinv
    apply SolvesAffine.unique
    · intro habs
      rcases mul_eq_zero.1 habs with hzero | hzero
      · rw [hzero, zero_mul] at hk
        exact zero_ne_one hk
      · rw [hzero, zero_mul] at hother
        exact zero_ne_one hother
    · show k * other * ((o * i - rest) * kInverse) + (rest * other - o) = 0
      linear_combination (o * i - rest) * other * hk + o * hother
  | none =>
    have hzero := Scalar.inverse?_eq_none_iff.1 hinv
    subst hzero
    show SolvesAffine (k * 0) (rest * 0 - o) 0 (.ofBool (o == 0))
    -- of the constant only the output is left
    have hconst : (o == 0) = (rest * 0 - o == 0) := by
      rw [mul_zero, zero_sub, Bool.eq_iff_iff, beq_iff_eq, beq_iff_eq, neg_eq_zero]
    rw [hconst]
    exact .of_slope_eq_zero (mul_zero k)

theorem solveOutput_spec {k kInverse : Scalar c} (rest l r : Scalar c) (hk : k * kInverse = 1) :
    SolvesAffine (-k) (l * r - rest) (solveOutput kInverse rest l r).1
      (solveOutput kInverse rest l r).2 := by
  apply SolvesAffine.unique
  · intro habs
    rw [neg_eq_zero.1 habs, zero_mul] at hk
    exact zero_ne_one hk
  · show -k * ((l * r - rest) * kInverse) + (l * r - rest) = 0
    linear_combination -(l * r - rest) * hk

/-- The operand of the unknown is its coefficient times the wire, and the rest. -/
theorem denoteSum_operand (hp : p ∈ g.places) (hreal : p.term.isVirtual = false)
    (v : Valuation c) :
    denoteSum table v (g.operand p.operand).terms =
      table.coefficient p.term.coeff * v p.term.wire + denoteSum table v (g.others p) := by
  rw [denoteSum_eraseIdx table v (mem_places_iff.1 hp), Term.denote, if_neg (by simp [hreal])]
  rfl

/-- A factor with a slope and a constant of zero is multiplied by zero. -/
theorem zero_of_factor {k kInverse rest other o : Scalar c} (hk : k * kInverse = 1)
    (hslope : k * other = 0) (hconst : rest * other - o = 0) : other = 0 ∧ o = 0 := by
  have hzero : other = 0 := by linear_combination kInverse * hslope - other * hk
  refine ⟨hzero, ?_⟩
  rw [hzero, mul_zero, zero_sub] at hconst
  exact neg_eq_zero.1 hconst

/-- The terms of an operand but for the unknown. -/
def knownTerms (g : RankOne) (p : Place) (x : Operand) : List Term :=
  if x = p.operand then g.others p else (g.operand x).terms

theorem knownTerms_self : g.knownTerms p p.operand = g.others p := if_pos rfl

theorem knownTerms_ne {x : Operand} (h : x ≠ p.operand) :
    g.knownTerms p x = (g.operand x).terms := if_neg h

/-- The value of the unknown of an operand, from the sums of all terms but the unknown. -/
def demand (kInverse : Scalar c) (sums : Operand → Scalar c) : Operand → Scalar c × Outcome
  | .l => solveFactor kInverse (sums .l) (sums .r) (sums .o)
  | .r => solveFactor kInverse (sums .r) (sums .l) (sums .o)
  | .o => solveOutput kInverse (sums .o) (sums .l) (sums .r)

/-- The isolation inverts the coefficient of the unknown and adds up all other terms. -/
theorem isolate_eq_some_iff {d : Scalar c × Outcome} :
    g.isolate table s p = .ok (some d) ↔ p.term.coeff.index < table.size ∧
      ∃ kInverse sums, (table.coefficient p.term.coeff).inverse? = some kInverse ∧
        (∀ x, sumTerms (s.computeTerm table) (g.knownTerms p x) = .ok (sums x)) ∧
        demand kInverse sums p.operand = d := by
  unfold isolate knownTerms
  rw [bind_eq_ok_iff]
  constructor
  · intro ⟨k, hvalue, h⟩
    obtain ⟨hcoeff, rfl⟩ := CoefficientTable.value_eq_ok_iff.1 hvalue
    refine ⟨hcoeff, ?_⟩
    cases hinv : (table.coefficient p.term.coeff).inverse? with
    | none =>
      rw [hinv] at h
      cases h
    | some kInverse =>
      rw [hinv] at h
      -- the unknown is left out of its own operand, and the other two are summed in full
      cases hplace : p.operand with
      | l =>
        simp only [hplace, bind_eq_ok_iff, pure_eq_ok_iff, Option.some.injEq] at h
        obtain ⟨rest, hrest, other, hother, o, ho, hd⟩ := h
        refine ⟨kInverse, fun | .l => rest | .r => other | .o => o, rfl, ?_, hd⟩
        exact Operand.forall_iff.2 ⟨hrest, hother, ho⟩
      | r =>
        simp only [hplace, bind_eq_ok_iff, pure_eq_ok_iff, Option.some.injEq] at h
        obtain ⟨rest, hrest, other, hother, o, ho, hd⟩ := h
        refine ⟨kInverse, fun | .l => other | .r => rest | .o => o, rfl, ?_, hd⟩
        exact Operand.forall_iff.2 ⟨hother, hrest, ho⟩
      | o =>
        simp only [hplace, bind_eq_ok_iff, pure_eq_ok_iff, Option.some.injEq] at h
        obtain ⟨l, hl, r, hr, rest, hrest, hd⟩ := h
        refine ⟨kInverse, fun | .l => l | .r => r | .o => rest, rfl, ?_, hd⟩
        exact Operand.forall_iff.2 ⟨hl, hr, hrest⟩
  · intro ⟨hcoeff, kInverse, sums, hinv, hsums, hd⟩
    refine ⟨_, CoefficientTable.value_eq_ok_iff.2 ⟨hcoeff, rfl⟩, ?_⟩
    obtain ⟨hl, hr, ho⟩ := Operand.forall_iff.1 hsums
    rw [hinv]
    -- the operands are summed in an order that depends on where the unknown is
    cases hplace : p.operand with
    | l =>
      rw [hplace] at hl hr ho hd
      simp only [bind_eq_ok_iff]
      exact ⟨_, hl, _, hr, _, ho, congrArg (Except.ok ∘ some) hd⟩
    | r =>
      rw [hplace] at hl hr ho hd
      simp only [bind_eq_ok_iff]
      exact ⟨_, hr, _, hl, _, ho, congrArg (Except.ok ∘ some) hd⟩
    | o =>
      rw [hplace] at hl hr ho hd
      simp only [bind_eq_ok_iff]
      exact ⟨_, hl, _, hr, _, ho, congrArg (Except.ok ∘ some) hd⟩

/-- The unknown's own coefficient and those of the other terms are in the table. -/
theorem coeff_lt_of_others (hp : p ∈ g.places) (hcoeff : p.term.coeff.index < table.size)
    (hothers : ∀ t ∈ g.others p, t.coeff.index < table.size) :
    ∀ t ∈ (g.operand p.operand).terms, t.coeff.index < table.size := by
  intro t ht
  obtain ⟨i, hi, rfl⟩ := List.mem_iff_getElem.1 ht
  -- the term at the unknown's position is the unknown, the others are left
  by_cases hpos : i = p.position
  · have hget := mem_places_iff.1 hp
    rw [← hpos, List.getElem?_eq_getElem hi] at hget
    rw [Option.some.inj hget]
    exact hcoeff
  · exact hothers _ (List.mem_eraseIdx_iff_getElem.2 ⟨i, hi, hpos, rfl⟩)

/-- What is added up has its coefficients in the table. -/
theorem coeff_lt_of_sums (hp : p ∈ g.places) (hcoeff : p.term.coeff.index < table.size)
    {sums : Operand → Scalar c}
    (hsums : ∀ x, sumTerms (s.computeTerm table) (g.knownTerms p x) = .ok (sums x)) :
    ∀ t ∈ g.terms, t.coeff.index < table.size := by
  intro t ht
  obtain ⟨x, ht⟩ := mem_terms_iff.1 ht
  -- its own operand lacks the unknown, whose coefficient is known to be in the table
  by_cases hx : x = p.operand
  · subst hx
    have hsum := hsums p.operand
    rw [knownTerms_self] at hsum
    exact coeff_lt_of_others hp hcoeff (fun u hu => Solution.coeff_lt_of_sumTerms hsum hu) t ht
  · have hsum := hsums x
    rw [knownTerms_ne hx] at hsum
    exact Solution.coeff_lt_of_sumTerms hsum ht

/-- The value of an operand with `x` on the unknown. -/
def operandAt (table : CoefficientTable c) (p : Place) (sums : Operand → Scalar c) (x : Scalar c)
    (y : Operand) : Scalar c :=
  (if y = p.operand then table.coefficient p.term.coeff * x else 0) + sums y

theorem denoteSum_of_sums (hp : p ∈ g.places) (hreal : p.term.isVirtual = false)
    {sums : Operand → Scalar c}
    (hsums : ∀ x, sumTerms (s.computeTerm table) (g.knownTerms p x) = .ok (sums x))
    {v : Valuation c} (hv : v.Agrees s) (y : Operand) :
    denoteSum table v (g.operand y).terms = operandAt table p sums (v p.term.wire) y := by
  have hsum := Solution.denoteSum_of_sumTerms (hsums y) hv
  unfold operandAt
  by_cases hy : y = p.operand
  · subst hy
    rw [knownTerms_self] at hsum
    rw [denoteSum_operand hp hreal, hsum, if_pos rfl]
  · rw [knownTerms_ne hy] at hsum
    rw [hsum, if_neg hy, zero_add]

theorem denote_of_sums (hp : p ∈ g.places) (hreal : p.term.isVirtual = false)
    {sums : Operand → Scalar c}
    (hsums : ∀ x, sumTerms (s.computeTerm table) (g.knownTerms p x) = .ok (sums x))
    {v : Valuation c} (hv : v.Agrees s) :
    (Gate.rankOne g).denote table v =
      operandAt table p sums (v p.term.wire) .l * operandAt table p sums (v p.term.wire) .r
        - operandAt table p sums (v p.term.wire) .o := by
  have hoperand := denoteSum_of_sums hp hreal hsums hv
  rw [← hoperand, ← hoperand, ← hoperand]
  rfl

/-- The formulas solve the gate for its unknown. -/
theorem isolate_spec (hp : p ∈ g.places) (hreal : p.term.isVirtual = false) {x : Scalar c}
    {outcome : Outcome} (h : g.isolate table s p = .ok (some (x, outcome))) :
    ∃ α β, (∀ v : Valuation c, v.Agrees s →
        (Gate.rankOne g).denote table v = α * v p.term.wire + β) ∧
      SolvesAffine α β x outcome ∧ (α = 0 → β = 0 → g.LeavesFree table s p) ∧
      ∀ t ∈ g.terms, t.coeff.index < table.size := by
  obtain ⟨hcoeff, kInverse, sums, hinv, hsums, hdemand⟩ := isolate_eq_some_iff.1 h
  have hunit := Scalar.inverse?_eq_some_iff.1 hinv
  have hcoeffs := coeff_lt_of_sums hp hcoeff hsums
  have hother : ∀ y, y ≠ p.operand → sums y = 0 →
      sumTerms (s.computeTerm table) (g.operand y).terms = .ok 0 := by
    intro y hy hzero
    rw [← knownTerms_ne hy, hsums y, hzero]
  -- a factor is solved by dividing, the output by multiplying
  cases hplace : p.operand with
  | l =>
    have hspec : SolvesAffine _ _ (demand kInverse sums .l).1 (demand kInverse sums .l).2 :=
      solveFactor_spec hunit
    rw [hplace] at hdemand hother
    rw [hdemand] at hspec
    refine ⟨_, _, ?_, hspec, ?_, hcoeffs⟩
    · intro v hv
      rw [denote_of_sums hp hreal hsums hv]
      simp only [operandAt, hplace, reduceCtorEq, if_true, if_false]
      ring
    · intro hslope hconst
      obtain ⟨hr, ho⟩ := zero_of_factor hunit hslope hconst
      exact .l hplace (hother .r (by decide) hr) (hother .o (by decide) ho)
  | r =>
    have hspec : SolvesAffine _ _ (demand kInverse sums .r).1 (demand kInverse sums .r).2 :=
      solveFactor_spec hunit
    rw [hplace] at hdemand hother
    rw [hdemand] at hspec
    refine ⟨_, _, ?_, hspec, ?_, hcoeffs⟩
    · intro v hv
      rw [denote_of_sums hp hreal hsums hv]
      simp only [operandAt, hplace, reduceCtorEq, if_true, if_false]
      ring
    · intro hslope hconst
      obtain ⟨hl, ho⟩ := zero_of_factor hunit hslope hconst
      exact .r hplace (hother .l (by decide) hl) (hother .o (by decide) ho)
  | o =>
    have hspec : SolvesAffine _ _ (demand kInverse sums .o).1 (demand kInverse sums .o).2 :=
      solveOutput_spec _ _ _ hunit
    rw [hplace] at hdemand
    rw [hdemand] at hspec
    refine ⟨_, _, ?_, hspec, ?_, hcoeffs⟩
    · intro v hv
      rw [denote_of_sums hp hreal hsums hv]
      simp only [operandAt, hplace, reduceCtorEq, if_true, if_false]
      ring
    · intro hslope
      rw [neg_eq_zero.1 hslope, zero_mul] at hunit
      exact absurd hunit zero_ne_one

/-- An open term is isolated where all other terms can be computed. -/
theorem exists_isolate (hp : p ∈ g.places) (hopen : s.Open p.term)
    (hbounds : ∀ t ∈ g.terms, t.coeff.index < table.size)
    (hknown : ∀ q ∈ g.places, s.Known q.term ∨ q = p) :
    ∃ demand, g.isolate table s p = .ok (some demand) := by
  have hcoeff := hbounds p.term (term_mem_terms hp)
  -- what is summed is known: the unknown is the one place that need not be
  have hsums : ∀ x, ∃ y, sumTerms (s.computeTerm table) (g.knownTerms p x) = .ok y := by
    intro x
    by_cases hx : x = p.operand
    · subst hx
      rw [knownTerms_self]
      apply Solution.exists_sumTerms
      · intro t ht
        exact hbounds t (mem_terms_iff.2 ⟨p.operand, List.mem_of_mem_eraseIdx ht⟩)
      · intro t ht
        obtain ⟨i, hne, hget⟩ := List.mem_eraseIdx_iff_getElem?.1 ht
        have hplace : ⟨p.operand, i, t⟩ ∈ g.places := mem_places_iff.2 hget
        refine (hknown _ hplace).resolve_right ?_
        intro heq
        exact hne (congrArg Place.position heq)
    · -- the place of the unknown is one occurrence, so no other operand is affected
      rw [knownTerms_ne hx]
      apply Solution.exists_sumTerms
      · intro t ht
        exact hbounds t (mem_terms_iff.2 ⟨x, ht⟩)
      · intro t ht
        obtain ⟨i, hi⟩ := exists_place ht
        refine (hknown _ hi).resolve_right ?_
        intro heq
        exact hx (congrArg Place.operand heq)
  choose sums hsums using hsums
  -- an open term has a coefficient other than zero, which has an inverse
  have hne : table.coefficient p.term.coeff ≠ 0 := fun hzero =>
    hopen.coeff_ne ((CoefficientTable.coefficient_eq_zero_iff hcoeff).1 hzero)
  have hinv := Scalar.inverse?_of_ne_zero hne
  exact ⟨_, isolate_eq_some_iff.2 ⟨hcoeff, _, sums, hinv, hsums, rfl⟩⟩

end Isolate

theorem holds_eq_ok_iff {table : CoefficientTable c} {s : Solution c} {g : RankOne}
    {v : Valuation c} (hv : v.Agrees s) {b : Bool} :
    g.holds table s = .ok b ↔
      (∀ t ∈ g.terms, t.coeff.index < table.size ∧ s.Known t) ∧
        decide ((Gate.rankOne g).denote table v = 0) = b := by
  unfold holds
  simp only [bind_eq_ok_iff, Solution.sumTerms_computeTerm_eq_ok_iff hv, pure_eq_ok_iff, terms,
    List.forall_mem_append]
  -- the check compares two sides, and the denotation is their difference
  have hzero : ∀ l r o : Scalar c, (l * r == o) = decide (l * r - o = 0) := by
    intro l r o
    rw [Bool.eq_iff_iff, beq_iff_eq, decide_eq_true_iff, sub_eq_zero]
  constructor
  · intro h
    obtain ⟨l, ⟨hl, hl'⟩, r, ⟨hr, hr'⟩, o, ⟨ho, ho'⟩, hb⟩ := h
    refine ⟨⟨⟨hl, hr⟩, ho⟩, ?_⟩
    rw [← hb, hzero, ← hl', ← hr', ← ho']
    rfl
  · intro h
    obtain ⟨⟨⟨hl, hr⟩, ho⟩, hb⟩ := h
    refine ⟨_, ⟨hl, rfl⟩, _, ⟨hr, rfl⟩, _, ⟨ho, rfl⟩, ?_⟩
    rw [hzero]
    exact hb

end RankOne

/-! ## Sparse gates -/

namespace SparseGate

/-- The residual is zero whatever is put for the unknown. -/
structure LeavesFree (table : CoefficientTable c) (s : Solution c) (g : SparseGate) : Prop where
  atZero : g.residualAt table s 0 = .ok 0
  atOne : g.residualAt table s 1 = .ok 0

theorem residualOf_eq_ok_iff {table : CoefficientTable c} {s : Solution c} {g : SparseGate}
    {v : Valuation c} (hv : v.Agrees s) {x : Scalar c} :
    g.residualOf table s = .ok x ↔
      (∀ t ∈ g.terms, t.coeff.index < table.size ∧ s.Known t) ∧ g.k.index < table.size ∧
        (Gate.sparse g).denote table v = x :=
  residual_eq_ok_iff (fun _ _ _ => Solution.computeTerm_eq_ok_iff hv) x

section Isolate

variable {table : CoefficientTable c} {s : Solution c} {g : SparseGate} {w : WireId}

/-- The residual with `v w` on the unknown is the value of the gate. -/
theorem residualAt_eq_ok_iff {v : Valuation c} (hv : v.Agrees s)
    (hopen : ∀ t ∈ g.terms, s.Open t → t.wire = w) {y : Scalar c} :
    g.residualAt table s (v w) = .ok y ↔
      (∀ t ∈ g.terms, t.coeff.index < table.size ∧ (s.Known t ∨ s.Open t)) ∧
        g.k.index < table.size ∧ (Gate.sparse g).denote table v = y := by
  refine residual_eq_ok_iff ?_ y
  -- an open term is at the unknown, so that the residual takes its value for it
  intro t ht x
  rw [bind_eq_ok_iff]
  constructor
  · intro ⟨o, ho, hx⟩
    cases o with
    | some z =>
      cases hx
      obtain ⟨⟨hlt, hk⟩, hz⟩ := (Solution.computeKnown_eq_some_iff hv).1 ho
      exact ⟨⟨hlt, .inl hk⟩, hz⟩
    | none =>
      have hop := Solution.computeKnown_eq_none_iff.1 ho
      obtain ⟨k, hk, heq⟩ := bind_eq_ok_iff.1 hx
      obtain ⟨hlt, hk⟩ := CoefficientTable.value_eq_ok_iff.1 hk
      cases heq
      refine ⟨⟨hlt, .inr hop⟩, ?_⟩
      rw [Term.denote, if_neg (by simp [hop.real]), hopen t ht hop, hk]
  · intro ⟨⟨hlt, hready⟩, hx⟩
    rcases hready with hk | hop
    · exact ⟨some x, (Solution.computeKnown_eq_some_iff hv).2 ⟨⟨hlt, hk⟩, hx⟩, rfl⟩
    · refine ⟨none, Solution.computeKnown_eq_none_iff.2 hop, ?_⟩
      refine bind_eq_ok_iff.2 ⟨_, CoefficientTable.value_eq_ok_iff.2 ⟨hlt, rfl⟩, ?_⟩
      rw [Term.denote, if_neg (by simp [hop.real]), hopen t ht hop] at hx
      rw [← hx]
      rfl

/-- The coefficient of the unknown `w` in a term. -/
def slope (table : CoefficientTable c) (w : WireId) (t : Term) : Scalar c :=
  if t.isVirtual = false ∧ t.wire = w then table.coefficient t.coeff else 0

/-- Every term is affine in every wire. -/
theorem denote_update (v : Valuation c) (x : Scalar c) (t : Term) :
    t.denote table (Function.update v w x) =
      slope table w t * x + t.denote table (Function.update v w 0) := by
  unfold Term.denote slope
  by_cases hvirt : t.isVirtual = true
  · simp [hvirt]
  · by_cases hw : t.wire = w
    · simp [hvirt, hw]
    · simp [hvirt, hw]

/-- The gate is affine in a wire that does not stand in both factors. -/
theorem denote_update_gate (hproduct : slope table w g.m₀ * slope table w g.m₁ = 0)
    (v : Valuation c) (x : Scalar c) :
    (Gate.sparse g).denote table (Function.update v w x) =
      ((Gate.sparse g).denote table (Function.update v w 1) -
          (Gate.sparse g).denote table (Function.update v w 0)) * x +
        (Gate.sparse g).denote table (Function.update v w 0) := by
  simp only [Gate.denote]
  rw [denote_update v x g.l, denote_update v x g.r, denote_update v x g.o,
    denote_update v x g.m₀, denote_update v x g.m₁, denote_update v 1 g.l,
    denote_update v 1 g.r, denote_update v 1 g.o, denote_update v 1 g.m₀,
    denote_update v 1 g.m₁]
  -- what is left over is the product of the two slopes
  linear_combination (x * x - x) * hproduct

theorem solveAffine_spec (atZero atOne : Scalar c) :
    SolvesAffine (atOne - atZero) atZero (solveAffine atZero atOne).1
      (solveAffine atZero atOne).2 := by
  unfold solveAffine
  -- the slope has an inverse, or it is zero
  cases hinv : (atOne - atZero).inverse? with
  | some i =>
    have hunit := Scalar.inverse?_eq_some_iff.1 hinv
    apply SolvesAffine.unique
    · intro habs
      rw [habs, zero_mul] at hunit
      exact zero_ne_one hunit
    · show (atOne - atZero) * (-atZero * i) + atZero = 0
      linear_combination -atZero * hunit
  | none =>
    have hslope := Scalar.inverse?_eq_none_iff.1 hinv
    exact .of_slope_eq_zero hslope

/-- A term that does not hold the unknown is known or of another wire. -/
theorem holdsUnknown_eq_ok_iff {t : Term} {b : Bool} :
    holdsUnknown s w t = .ok b ↔
      (s.Known t ∧ b = false) ∨ (s.Open t ∧ b = decide (t.wire = w)) := by
  unfold holdsUnknown
  rw [bind_eq_ok_iff]
  -- a term that is not known is open
  constructor
  · intro ⟨known, hknown, hb⟩
    cases known with
    | true =>
      cases hb
      exact .inl ⟨Solution.isKnown_true_iff.1 hknown, rfl⟩
    | false =>
      cases hb
      exact .inr ⟨Solution.isKnown_false_iff.1 hknown, rfl⟩
  · intro h
    rcases h with ⟨hk, rfl⟩ | ⟨hop, rfl⟩
    · exact ⟨true, Solution.isKnown_true_iff.2 hk, rfl⟩
    · exact ⟨false, Solution.isKnown_false_iff.2 hop, rfl⟩

/-- A known term does not change with an unsolved wire. -/
theorem slope_of_known (hw : s.get? w = none) {t : Term} (hk : s.Known t) :
    slope table w t = 0 := by
  unfold slope
  split
  · rename_i hwire
    obtain ⟨hreal, rfl⟩ := hwire
    rcases hk with hv | hz | hs
    · rw [hreal] at hv
      cases hv
    · rw [hz, CoefficientTable.coefficient_zero]
    · rw [hw] at hs
      cases hs
  · rfl

theorem known_of_holdsUnknown_false (hopen : ∀ t ∈ g.terms, s.Open t → t.wire = w) {t : Term}
    (ht : t ∈ g.terms) (h : holdsUnknown s w t = .ok false) : s.Known t := by
  rcases holdsUnknown_eq_ok_iff.1 h with ⟨hk, -⟩ | ⟨hop, habs⟩
  · exact hk
  · rw [hopen t ht hop, decide_eq_true rfl] at habs
    cases habs

/-- The residual with a value on the unknown, under a valuation that agrees but for
    the unknown. -/
theorem denote_of_residualAt (hw : s.get? w = none)
    (hopen : ∀ t ∈ g.terms, s.Open t → t.wire = w) {x y : Scalar c}
    (h : g.residualAt table s x = .ok y) {v : Valuation c} (hv : v.Agrees s) :
    (Gate.sparse g).denote table (Function.update v w x) = y := by
  rw [← Function.update_self w x v] at h
  exact ((residualAt_eq_ok_iff (hv.update hw x) hopen).1 h).2.2

/-- The residuals at zero and one solve the gate for its unknown. -/
theorem isolate_spec (hw : s.get? w = none) (hopen : ∀ t ∈ g.terms, s.Open t → t.wire = w)
    {x : Scalar c} {outcome : Outcome} (h : g.isolate table s w = .ok (some (x, outcome))) :
    ∃ α β, (∀ v : Valuation c, v.Agrees s → (Gate.sparse g).denote table v = α * v w + β) ∧
      SolvesAffine α β x outcome ∧ (α = 0 → β = 0 → g.LeavesFree table s) ∧
      (∀ t ∈ g.terms, t.coeff.index < table.size) ∧ g.k.index < table.size := by
  unfold isolate at h
  simp only [bind_eq_ok_iff] at h
  obtain ⟨b₀, hb₀, b₁, hb₁, h⟩ := h
  -- one of the factors does not hold the unknown, or there would be no value
  have hproduct : slope table w g.m₀ * slope table w g.m₁ = 0 := by
    cases b₀ with
    | false =>
      have hk := known_of_holdsUnknown_false hopen (by simp [terms]) hb₀
      rw [slope_of_known hw hk, zero_mul]
    | true =>
      cases b₁ with
      | false =>
        have hk := known_of_holdsUnknown_false hopen (by simp [terms]) hb₁
        rw [slope_of_known hw hk, mul_zero]
      | true => cases h
  have hboth : (b₀ && b₁) = false := by
    cases hb : b₀ && b₁ with
    | false => rfl
    | true =>
      rw [hb] at h
      cases h
  rw [hboth, if_neg (by decide)] at h
  simp only [bind_eq_ok_iff, pure_eq_ok_iff, Option.some.injEq] at h
  obtain ⟨atZero, hzero, atOne, hone, hx⟩ := h
  have hspec := solveAffine_spec atZero atOne
  rw [hx] at hspec
  refine ⟨atOne - atZero, atZero, ?_, hspec, ?_, ?_⟩
  · intro v hv
    have haffine := denote_update_gate hproduct v (v w)
    rw [denote_of_residualAt hw hopen hone hv, denote_of_residualAt hw hopen hzero hv,
      Function.update_eq_self] at haffine
    exact haffine
  · intro hslope hconst
    rw [hconst, sub_zero] at hslope
    exact ⟨hconst ▸ hzero, hslope ▸ hone⟩
  · rw [← Function.update_self w 0 (valuation s.complete)] at hzero
    obtain ⟨hterms, hk, -⟩ :=
      (residualAt_eq_ok_iff (s.agrees_complete.update hw 0) hopen).1 hzero
    exact ⟨fun t ht => (hterms t ht).1, hk⟩

/-- The isolation of a wire comes to an end where no other term is open. -/
theorem exists_isolate (hw : s.get? w = none) (hopen : ∀ t ∈ g.terms, s.Open t → t.wire = w)
    (hready : ∀ t ∈ g.terms, t.coeff.index < table.size ∧ (s.Known t ∨ s.Open t))
    (hk : g.k.index < table.size) : ∃ o, g.isolate table s w = .ok o := by
  have hholds : ∀ t ∈ g.terms, ∃ b, holdsUnknown s w t = .ok b := by
    intro t ht
    rcases (hready t ht).2 with hknown | hop
    · exact ⟨false, holdsUnknown_eq_ok_iff.2 (.inl ⟨hknown, rfl⟩)⟩
    · exact ⟨_, holdsUnknown_eq_ok_iff.2 (.inr ⟨hop, rfl⟩)⟩
  -- the residual is defined at every value of the unknown, so at zero and one
  have hresidual : ∀ x, ∃ y, g.residualAt table s x = .ok y := by
    intro x
    rw [← Function.update_self w x (valuation s.complete)]
    exact ⟨_, (residualAt_eq_ok_iff (s.agrees_complete.update hw x) hopen).2 ⟨hready, hk, rfl⟩⟩
  obtain ⟨b₀, hb₀⟩ := hholds g.m₀ (by simp [terms])
  obtain ⟨b₁, hb₁⟩ := hholds g.m₁ (by simp [terms])
  obtain ⟨atZero, hzero⟩ := hresidual 0
  obtain ⟨atOne, hone⟩ := hresidual 1
  unfold isolate
  -- in a square the gate is not affine, and nothing is isolated
  cases hb : b₀ && b₁ with
  | true =>
    refine ⟨none, ?_⟩
    simp only [bind_eq_ok_iff]
    exact ⟨b₀, hb₀, b₁, hb₁, by rw [hb, if_pos rfl, pure_eq_ok_iff]⟩
  | false =>
    refine ⟨some (solveAffine atZero atOne), ?_⟩
    simp only [bind_eq_ok_iff]
    refine ⟨b₀, hb₀, b₁, hb₁, ?_⟩
    rw [hb, if_neg (by decide)]
    simp only [bind_eq_ok_iff, pure_eq_ok_iff]
    exact ⟨atZero, hzero, atOne, hone, rfl⟩

end Isolate

end SparseGate

end CircuitWitness
