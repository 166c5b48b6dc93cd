import CircuitWitness.Proofs.Bookkeeping
import CircuitWitness.Proofs.Solver.Rendering

/-! # A part of the wires is enough

    A solution evaluates a combination as far as its solved wires allow: it skips
    the wire of a coefficient zero, and takes a short cut for the other reserved
    coefficients.  A verifier is handed a value for every wire, multiplies each by
    its coefficient and adds up.

    The two agree.  A solution has no value for a combination exactly if a term
    with a coefficient other than zero stands on an unsolved wire.  If it has one,
    that is what the verifier gets for every assignment that keeps the solved wires
    (`Solution.CompletedBy`), whatever it gives to the others, and it is what the
    solution has after anything else was solved.
-/

namespace CircuitWitness

variable {c : Curve} {table : CoefficientTable c} {s u : Solution c}

namespace Solution

/-! ## Complete assignments -/

/-- A value for every wire that keeps those of the solved wires. -/
structure CompletedBy (s : Solution c) (values : Array (Scalar c)) : Prop where
  size_eq : values.size = s.nWires
  keeps : ∀ w x, s.value w = .ok (some x) → wireValue values w = .ok x

theorem completedBy_iff {values : Array (Scalar c)} :
    s.CompletedBy values ↔ values.size = s.nWires ∧
      ∀ i < s.nWires, ∀ x ∈ s.get? ⟨i⟩, values[i]? = some x := by
  constructor
  · intro h
    refine ⟨h.size_eq, ?_⟩
    intro i hi x hx
    obtain ⟨hlt, hval⟩ := wireValue_eq_ok_iff.1 (h.keeps ⟨i⟩ x (value_eq_ok_iff.2 ⟨hi, hx⟩))
    simp only [valuation, Array.getElem?_eq_getElem hlt, Option.getD_some] at hval
    rw [Array.getElem?_eq_getElem hlt, hval]
  · rintro ⟨hsize, hkeeps⟩
    refine ⟨hsize, ?_⟩
    intro w x hx
    obtain ⟨hlt, hget⟩ := value_eq_ok_iff.1 hx
    unfold wireValue
    rw [hkeeps w.index hlt x hget]

instance (values : Array (Scalar c)) : Decidable (s.CompletedBy values) :=
  decidable_of_iff _ completedBy_iff.symm

theorem CompletedBy.agrees {values : Array (Scalar c)} (h : s.CompletedBy values) :
    (valuation values).Agrees s := by
  intro w x hx
  have hvalue := h.keeps w x (value_eq_ok_iff.2 ⟨lt_of_get? hx, hx⟩)
  exact (wireValue_eq_ok_iff.1 hvalue).2

/-- What a solution hands out in the end completes it. -/
theorem completedBy_complete (s : Solution c) : s.CompletedBy s.complete := by
  rw [completedBy_iff]
  refine ⟨s.size_complete, ?_⟩
  intro i _ x hx
  exact getElem?_complete (w := ⟨i⟩) hx

/-! ## The value of a combination -/

/-- The terms of a sum are all known if the sum is. -/
theorem evaluateFrom_eq_some_iff {v : Valuation c} (hv : v.Agrees s) {terms : List Term}
    {sum x : Scalar c} :
    s.evaluateFrom table sum terms = .ok (some x) ↔
      (∀ t ∈ terms, t.coeff.index < table.size ∧ s.Known t) ∧
        sum + denoteSum table v terms = x := by
  -- the sum of the terms before is carried along
  induction terms generalizing sum with
  | nil => simp [evaluateFrom]
  | cons t rest ih =>
    rw [evaluateFrom, bind_eq_ok_iff, List.forall_mem_cons, denoteSum_cons, ← add_assoc]
    constructor
    · rintro ⟨_ | y, hy, h⟩
      · cases h
      · obtain ⟨hready, rfl⟩ := (computeKnown_eq_some_iff hv).1 hy
        obtain ⟨hrest, hx⟩ := ih.1 h
        exact ⟨⟨hready, hrest⟩, hx⟩
    · rintro ⟨⟨hready, hrest⟩, hx⟩
      exact ⟨_, (computeKnown_eq_some_iff hv).2 ⟨hready, rfl⟩, ih.2 ⟨hrest, hx⟩⟩

theorem evaluate_eq_some_iff {v : Valuation c} (hv : v.Agrees s) {lc : LinearCombination}
    {x : Scalar c} :
    s.evaluate table lc = .ok (some x) ↔
      (∀ t ∈ lc.terms, t.coeff.index < table.size ∧ s.Known t) ∧
        denoteSum table v lc.terms = x := by
  rw [evaluate, evaluateFrom_eq_some_iff hv, zero_add]

/-- A combination is not known if one of its terms is open. -/
theorem evaluate_eq_none_iff {lc : LinearCombination}
    (hb : ∀ t ∈ lc.terms, t.InBounds table s.nWires) :
    s.evaluate table lc = .ok none ↔ ∃ t ∈ lc.terms, s.Open t := by
  constructor
  · intro hnone
    by_contra hall
    -- no term is open, so that every term is known and the sum with them
    have hknown : ∀ t ∈ lc.terms, t.coeff.index < table.size ∧ s.Known t := by
      intro t ht
      refine ⟨(hb t ht).1, ?_⟩
      obtain ⟨b, hknown⟩ := exists_isKnown (hb t ht)
      cases b with
      | true => exact isKnown_true_iff.1 hknown
      | false => exact absurd ⟨t, ht, isKnown_false_iff.1 hknown⟩ hall
    have hsome := (evaluate_eq_some_iff s.agrees_complete).2 ⟨hknown, rfl⟩
    rw [hnone] at hsome
    cases hsome
  · rintro ⟨t, ht, hopen⟩
    obtain ⟨o, ho⟩ := exists_evaluateFrom hb 0
    cases o with
    | none => exact ho
    | some x =>
      have hall := ((evaluate_eq_some_iff s.agrees_complete).1 ho).1
      exact absurd (hall t ht).2 hopen.not_known

theorem open_iff {t : Term} (ht : t.coeff.index < table.size) :
    s.Open t ↔ t.isVirtual = false ∧ table.coefficient t.coeff ≠ 0 ∧
      s.value t.wire = .ok none := by
  rw [Ne, CoefficientTable.coefficient_eq_zero_iff ht, value_eq_ok_iff]
  constructor
  · intro h
    exact ⟨h.real, h.coeff_ne, h.lt, h.unsolved⟩
  · rintro ⟨hreal, hcoeff, hlt, hunsolved⟩
    exact ⟨hreal, hcoeff, hlt, hunsolved⟩

/-- What is known stays known. -/
theorem evaluate_of_extends {lc : LinearCombination} {x : Scalar c} (hext : s.Extends u)
    (h : s.evaluate table lc = .ok (some x)) : u.evaluate table lc = .ok (some x) := by
  have hagrees := u.agrees_complete
  obtain ⟨hready, hx⟩ := (evaluate_eq_some_iff (hagrees.of_extends hext)).1 h
  refine (evaluate_eq_some_iff hagrees).2 ⟨?_, hx⟩
  intro t ht
  exact ⟨(hready t ht).1, (hready t ht).2.of_extends hext⟩

/-! ## The verifier -/

section Verifier

variable {values : Array (Scalar c)}

/-- The verifier multiplies, and gets what the short cuts give. -/
theorem evalTerm_of_computeTerm (hvalues : s.CompletedBy values) {t : Term} {x : Scalar c}
    (ht : t.InBounds table s.nWires) (h : s.computeTerm table t = .ok x) :
    evalTerm table values t = .ok x := by
  rw [evalTerm_eq_ok_iff, hvalues.size_eq]
  exact ⟨ht, ((computeTerm_eq_ok_iff hvalues.agrees).1 h).2⟩

theorem evalCombination_of_evaluate (hvalues : s.CompletedBy values) {lc : LinearCombination}
    {x : Scalar c} (hb : ∀ t ∈ lc.terms, t.InBounds table s.nWires)
    (h : s.evaluate table lc = .ok (some x)) : evalCombination table values lc = .ok x := by
  rw [evalCombination_eq_ok_iff, hvalues.size_eq]
  exact ⟨hb, ((evaluate_eq_some_iff hvalues.agrees).1 h).2⟩

end Verifier

end Solution

/-- A combination of existing wires and constants is evaluated without a fault.  It has no
    value exactly if a wire that counts is unsolved; a value that it has is the verifier's
    for every complete assignment, and stays.  Term by term the same is true. -/
theorem evaluate_agrees {st : SolveState c} {lc : LinearCombination}
    (hb : ∀ t ∈ lc.terms, t.InBounds table st.solution.nWires) :
    (∃ o, st.solution.evaluate table lc = .ok o) ∧
    (st.solution.evaluate table lc = .ok none ↔ ∃ t ∈ lc.terms, t.isVirtual = false ∧
      table.coefficient t.coeff ≠ 0 ∧ st.solution.value t.wire = .ok none) ∧
    (∀ x, st.solution.evaluate table lc = .ok (some x) →
      (∀ values, st.solution.CompletedBy values → evalCombination table values lc = .ok x) ∧
      ∀ later : List (Request c),
        (st.afterAll later).solution.evaluate table lc = .ok (some x)) ∧
    ∀ t ∈ lc.terms, st.solution.isKnown t = .ok true →
      ∃ x, st.solution.computeTerm table t = .ok x ∧
        ∀ values, st.solution.CompletedBy values → evalTerm table values t = .ok x := by
  refine ⟨Solution.exists_evaluateFrom hb 0, ?_, ?_, ?_⟩
  · rw [Solution.evaluate_eq_none_iff hb]
    -- an open term is one with a wire, a coefficient other than zero and no value
    refine exists_congr fun t => and_congr_right fun ht => ?_
    exact Solution.open_iff (hb t ht).1
  · intro x hx
    refine ⟨fun values hvalues => Solution.evalCombination_of_evaluate hvalues hb hx, ?_⟩
    intro later
    -- whatever is asked for later only adds to what is solved
    exact Solution.evaluate_of_extends (extends_of_changes (changes_afterAll st later)) hx
  · intro t ht hknown
    obtain ⟨x, hx⟩ := Solution.exists_computeTerm (hb t ht) (Solution.isKnown_true_iff.1 hknown)
    exact ⟨x, hx, fun values hvalues => Solution.evalTerm_of_computeTerm hvalues (hb t ht) hx⟩

/-- Two wires are solved and one is not. -/
def SolveState.partway : SolveState .bn254 :=
  ⟨⟨#[1, .ofNat 5, 0], #[true, true, false], 2, rfl⟩, default, #[]⟩

/-- `2 ⋅ x + 0 ⋅ y + 1`. -/
def LinearCombination.partway : LinearCombination :=
  ⟨[⟨.two, ⟨1⟩, .internal⟩, ⟨.zero, ⟨2⟩, .internal⟩, .constant .one]⟩

/-- `x` is `5`, and `y` does not count. -/
theorem evaluate_agrees_sample :
    SolveState.partway.solution.evaluate .new .partway = .ok (some 11) ∧
      evalCombination (c := .bn254) .new #[1, 5, 7] .partway = .ok 11 := by
  have hb : ∀ t ∈ LinearCombination.partway.terms,
      t.InBounds (.new : CoefficientTable .bn254) SolveState.partway.solution.nWires := by decide
  have hx : SolveState.partway.solution.evaluate .new .partway = .ok (some 11) := by rfl
  obtain ⟨-, -, hsome, -⟩ := evaluate_agrees hb
  exact ⟨hx, (hsome 11 hx).1 #[1, 5, 7] (by decide)⟩

end CircuitWitness
