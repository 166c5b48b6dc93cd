import CircuitWitness.Proofs.Evaluation
import CircuitWitness.Proofs.Solver.Visit

/-! # Diagnostics tell the truth

    A visit that finds its gate violated leaves a solution, and the gate is described
    from it.  The visit may have got there in two ways: all terms were known and did
    not add up, or the one unknown dropped out, was set to zero, and the rest did not
    add up.  A term with a coefficient zero may still be unsolved.

    Either way every operand has a value (`Gate.Diagnosis`): no placeholder shows, the
    numbers are what a verifier gets whatever is put on the unsolved wires, and they
    violate the equation of the gate.  So nothing can be added to the solution that
    makes the gate hold.
-/

namespace CircuitWitness

open Solving

variable {c : Curve} {k : Kind} {table : CoefficientTable c} {s : Solution c}

/-! ## Texts without placeholders -/

/-- The text has no character that opens a placeholder for a value. -/
def Plain (text : String) : Prop := '<' ∉ text.toList

instance (text : String) : Decidable (Plain text) := inferInstanceAs (Decidable (_ ∉ _))

theorem plain_append_iff {a b : String} : Plain (a ++ b) ↔ Plain a ∧ Plain b := by
  unfold Plain
  rw [String.toList_append, List.mem_append, not_or]

theorem plain_append {a b : String} (ha : Plain a) (hb : Plain b) : Plain (a ++ b) :=
  plain_append_iff.2 ⟨ha, hb⟩

theorem plain_repr (n : Nat) : Plain n.repr := by
  intro hmem
  exact absurd (isDigit_of_mem_repr hmem) (by decide)

theorem plain_decimal (x : Scalar c) : Plain x.decimal := plain_repr x.val

theorem plain_intercalate {sep : String} (hsep : Plain sep) {texts : List String}
    (h : ∀ text ∈ texts, Plain text) : Plain (sep.intercalate texts) := by
  induction texts with
  | nil =>
    rw [String.intercalate_nil]
    exact List.not_mem_nil
  | cons a rest ih =>
    rw [List.forall_mem_cons] at h
    cases rest with
    | nil =>
      rw [String.intercalate_singleton]
      exact h.1
    | cons b rest =>
      rw [String.intercalate_cons_cons]
      exact plain_append (plain_append h.1 hsep) (ih h.2)

/-- The placeholder for a value is not in a text without its first character. -/
theorem Plain.not_unsolved {text : String} (h : Plain text) :
    ¬unsolvedText.toList <:+: text.toList := by
  intro habs
  exact h (habs.subset (by decide))

/-! ## Symbols -/

theorem plain_symbol (t : Term) : Plain (t.symbol table) := by
  intro hmem
  exact absurd (Term.mem_symbol hmem) (by decide)

theorem plain_symbolic {t : Term} {text : String} (h : t.symbolic table = .ok text) :
    Plain text := by
  obtain ⟨-, rfl⟩ := Term.symbolic_eq_ok_iff.1 h
  exact plain_symbol t

/-- A combination that is set is shown by its terms. -/
theorem plain_symbolic_combination {lc : LinearCombination} {text : String}
    (hset : lc.terms ≠ []) (h : lc.symbolic table = .ok text) : Plain text := by
  obtain ⟨-, rfl⟩ := LinearCombination.symbolic_eq_ok_iff.1 h
  apply plain_intercalate
  · decide
  · intro symbol hsymbol
    rw [LinearCombination.symbols, if_neg (by simpa using hset)] at hsymbol
    obtain ⟨t, -, rfl⟩ := List.mem_map.1 hsymbol
    exact plain_symbol t

/-! ## Operands -/

/-- An operand has a value, which a verifier gets too, and is shown by a plain text. -/
structure Shown (s : Solution c) (computed : Except Fault (Option (Scalar c)))
    (symbols : Except Fault String) (verified : Array (Scalar c) → Except Fault (Scalar c))
    (x : Scalar c) (text : String) : Prop where
  computed_eq : computed = .ok (some x)
  symbols_eq : symbols = .ok text
  plain : Plain text
  verified_eq : ∀ values, s.CompletedBy values → verified values = .ok x

theorem shown_combination {lc : LinearCombination} (hset : lc.terms ≠ [])
    (hb : ∀ t ∈ lc.terms, t.InBounds table s.nWires) (hknown : ∀ t ∈ lc.terms, s.Known t) :
    ∃ x text, Shown s (s.evaluate table lc) (lc.symbolic table)
      (evalCombination table · lc) x text := by
  have hready := fun t ht => And.intro (hb t ht).1 (hknown t ht)
  have hx := (Solution.evaluate_eq_some_iff s.agrees_complete).2 ⟨hready, rfl⟩
  obtain ⟨text, htext⟩ := exists_symbolic_combination fun t ht => (hb t ht).1
  refine ⟨_, text, hx, htext, plain_symbolic_combination hset htext, ?_⟩
  intro values hvalues
  exact Solution.evalCombination_of_evaluate hvalues hb hx

theorem shown_term {t : Term} (hb : t.InBounds table s.nWires) (hknown : s.Known t) :
    ∃ x text, Shown s (s.computeKnown table t) (t.symbolic table) (evalTerm table · t) x text := by
  have hx := (Solution.computeKnown_eq_some_iff s.agrees_complete).2 ⟨⟨hb.1, hknown⟩, rfl⟩
  obtain ⟨text, htext⟩ := exists_symbolic hb.1
  refine ⟨_, text, hx, htext, plain_symbolic htext, ?_⟩
  intro values hvalues
  rw [evalTerm_eq_ok_iff, hvalues.size_eq]
  exact ⟨hb, ((Solution.computeKnown_eq_some_iff hvalues.agrees).1 hx).2⟩

/-! ## Gates -/

/-- What is said of a gate that is violated.  The numbers are those of the verifier for every
    complete assignment that keeps the solved wires, and they violate the equation of the
    gate. -/
inductive Gate.Diagnosis (table : CoefficientTable c) (s : Solution c) :
    {k : Kind} → Gate k → String → Prop where
  | rankOne {g : RankOne} {l r o : Scalar c} {lText rText oText : String}
      (hvalues : ∀ values, s.CompletedBy values →
        evalCombination table values g.l = .ok l ∧ evalCombination table values g.r = .ok r ∧
          evalCombination table values g.o = .ok o)
      (hviolated : l * r ≠ o)
      (hsymbols : g.l.symbolic table = .ok lText ∧ g.r.symbolic table = .ok rText ∧
        g.o.symbolic table = .ok oText) :
      Diagnosis table s (.rankOne g) (s!"{l.decimal} ⋅ {r.decimal} != {o.decimal} in "
        ++ s!"({lText}) ⋅ ({rText}) = {oText}")
  | sparse {g : SparseGate} {l r o m₀ m₁ k : Scalar c} {symbols : Vector String 5}
      (hvalues : ∀ values, s.CompletedBy values →
        evalTerm table values g.l = .ok l ∧ evalTerm table values g.r = .ok r ∧
          evalTerm table values g.o = .ok o ∧ evalTerm table values g.m₀ = .ok m₀ ∧
          evalTerm table values g.m₁ = .ok m₁)
      (hconstant : table.value g.k = .ok k)
      (hviolated : l + r + o + m₀ * m₁ + k ≠ 0)
      (hsymbols : #v[g.l, g.r, g.o, g.m₀, g.m₁].mapM (Term.symbolic table) = .ok symbols) :
      Diagnosis table s (.sparse g)
        (let numbers := #v[l.decimal, r.decimal, o.decimal, m₀.decimal, m₁.decimal]
        let text := (SparseGate.equationText · k.decimal)
        s!"{text numbers} != 0 in {text symbols} = 0")

theorem diagnosed_rankOne {g : RankOne} (hset : g.assertSet = .ok ())
    (hdecided : (Gate.rankOne g).Decided table s .unsatisfied) :
    ∃ text, g.describe table s = .ok text ∧ Plain text ∧
      (Gate.rankOne g).Diagnosis table s text := by
  unfold RankOne.assertSet at hset
  simp only [check_bind_eq_ok_iff, LinearCombination.assertSet_eq_ok_iff] at hset
  have hoperand : ∀ lc : LinearCombination, (∀ t ∈ lc.terms, t ∈ g.terms) → lc.terms ≠ [] →
      ∃ x text, Shown s (s.evaluate table lc) (lc.symbolic table)
        (evalCombination table · lc) x text := by
    intro lc hmem hne
    refine shown_combination hne ?_ ?_
    · intro t ht
      exact hdecided.inBounds.1 t (hmem t ht)
    · intro t ht
      exact hdecided.known t (hmem t ht)
  obtain ⟨l, lText, hl⟩ := hoperand g.l (fun t ht => RankOne.mem_terms_iff.2 ⟨.l, ht⟩) hset.1
  obtain ⟨r, rText, hr⟩ := hoperand g.r (fun t ht => RankOne.mem_terms_iff.2 ⟨.r, ht⟩) hset.2.1
  obtain ⟨o, oText, ho⟩ := hoperand g.o (fun t ht => RankOne.mem_terms_iff.2 ⟨.o, ht⟩) hset.2.2
  have hdescribe : g.describe table s = .ok (s!"{l.decimal} ⋅ {r.decimal} != {o.decimal} in "
      ++ s!"({lText}) ⋅ ({rText}) = {oText}") := by
    unfold RankOne.describe
    rw [hl.computed_eq, hr.computed_eq, ho.computed_eq, hl.symbols_eq, hr.symbols_eq,
      ho.symbols_eq]
    rfl
  have hviolated : l * r ≠ o := by
    -- the completed solution is one of the assignments, and the gate is violated under it
    have hcomplete := s.completedBy_complete
    intro heq
    have hzero : (Gate.rankOne g).denote table (valuation s.complete) = 0 := by
      rw [Gate.denote, (evalCombination_eq_ok_iff.1 (hl.verified_eq _ hcomplete)).2,
        (evalCombination_eq_ok_iff.1 (hr.verified_eq _ hcomplete)).2,
        (evalCombination_eq_ok_iff.1 (ho.verified_eq _ hcomplete)).2, heq, sub_self]
    cases (hdecided.satisfied_iff _ s.agrees_complete).2 hzero
  refine ⟨_, hdescribe, ?_, .rankOne ?_ hviolated ⟨hl.symbols_eq, hr.symbols_eq, ho.symbols_eq⟩⟩
  · simp +decide only [toString, plain_append_iff, plain_decimal, hl.plain, hr.plain, ho.plain,
      and_self]
  · intro values hvalues
    exact ⟨hl.verified_eq values hvalues, hr.verified_eq values hvalues,
      ho.verified_eq values hvalues⟩

theorem plain_equationText {texts : Vector String 5} {constant : String}
    (htexts : ∀ text ∈ texts.toList, Plain text) (hconstant : Plain constant) :
    Plain (SparseGate.equationText texts constant) := by
  have htext : ∀ (i : Nat) (hi : i < 5), Plain texts[i] := fun i hi => htexts _ (by simp)
  unfold SparseGate.equationText
  simp +decide only [toString, plain_append_iff, htext, hconstant, and_self]

theorem diagnosed_sparse {g : SparseGate}
    (hdecided : (Gate.sparse g).Decided table s .unsatisfied) :
    ∃ text, g.describe table s = .ok text ∧ Plain text ∧
      (Gate.sparse g).Diagnosis table s text := by
  have hterm : ∀ t ∈ g.terms, ∃ x text, Shown s (s.computeKnown table t) (t.symbolic table)
      (evalTerm table · t) x text := fun t ht =>
    shown_term (hdecided.inBounds.1 t ht) (hdecided.known t ht)
  obtain ⟨l, lText, hl⟩ := hterm g.l (by simp [SparseGate.terms])
  obtain ⟨r, rText, hr⟩ := hterm g.r (by simp [SparseGate.terms])
  obtain ⟨o, oText, ho⟩ := hterm g.o (by simp [SparseGate.terms])
  obtain ⟨m₀, m₀Text, hm₀⟩ := hterm g.m₀ (by simp [SparseGate.terms])
  obtain ⟨m₁, m₁Text, hm₁⟩ := hterm g.m₁ (by simp [SparseGate.terms])
  -- all that is described is known, so that it has a value and a text
  have hk := CoefficientTable.value_eq_ok_iff.2
    ⟨hdecided.inBounds.2 g.k (by simp [Gate.extraCoefficients]), rfl⟩
  have hnumbers : #v[g.l, g.r, g.o, g.m₀, g.m₁].mapM
      (fun t => return valueText (← s.computeKnown table t)) =
        .ok #v[l.decimal, r.decimal, o.decimal, m₀.decimal, m₁.decimal] := by
    have hshown : ∀ {t : Term} {x : Scalar c}, s.computeKnown table t = .ok (some x) →
        (do return valueText (← s.computeKnown table t) : Except Fault String) =
          .ok x.decimal := by
      intro t x hx
      rw [hx]
      rfl
    exact mapM_vector_eq_ok_iff.2 (.cons (hshown hl.computed_eq) (.cons (hshown hr.computed_eq)
      (.cons (hshown ho.computed_eq) (.cons (hshown hm₀.computed_eq)
        (.cons (hshown hm₁.computed_eq) .nil)))))
  have hsymbols : #v[g.l, g.r, g.o, g.m₀, g.m₁].mapM (Term.symbolic table) =
      .ok #v[lText, rText, oText, m₀Text, m₁Text] :=
    mapM_vector_eq_ok_iff.2 (.cons hl.symbols_eq (.cons hr.symbols_eq (.cons ho.symbols_eq
      (.cons hm₀.symbols_eq (.cons hm₁.symbols_eq .nil)))))
  have hdescribe : g.describe table s = .ok
      (let numbers := #v[l.decimal, r.decimal, o.decimal, m₀.decimal, m₁.decimal]
      let symbols := #v[lText, rText, oText, m₀Text, m₁Text]
      let text := (SparseGate.equationText · (table.coefficient g.k).decimal)
      s!"{text numbers} != 0 in {text symbols} = 0") := by
    unfold SparseGate.describe
    simp only
    rw [hk, hnumbers, hsymbols]
    rfl
  -- the values shown are those that the check rejected
  have hviolated : l + r + o + m₀ * m₁ + table.coefficient g.k ≠ 0 := by
    have hcomplete := s.completedBy_complete
    intro heq
    have hzero : (Gate.sparse g).denote table (valuation s.complete) = 0 := by
      rw [Gate.denote, (evalTerm_eq_ok_iff.1 (hl.verified_eq _ hcomplete)).2,
        (evalTerm_eq_ok_iff.1 (hr.verified_eq _ hcomplete)).2,
        (evalTerm_eq_ok_iff.1 (ho.verified_eq _ hcomplete)).2,
        (evalTerm_eq_ok_iff.1 (hm₀.verified_eq _ hcomplete)).2,
        (evalTerm_eq_ok_iff.1 (hm₁.verified_eq _ hcomplete)).2, heq]
    cases (hdecided.satisfied_iff _ s.agrees_complete).2 hzero
  refine ⟨_, hdescribe, ?_, .sparse ?_ hk hviolated hsymbols⟩
  · have hconstant := plain_decimal (table.coefficient g.k)
    have htext : Plain (SparseGate.equationText #v[l.decimal, r.decimal, o.decimal, m₀.decimal,
        m₁.decimal] _) := plain_equationText (by simp [plain_decimal]) hconstant
    have hsymbol : Plain (SparseGate.equationText #v[lText, rText, oText, m₀Text, m₁Text] _) :=
      plain_equationText (by simp [hl.plain, hr.plain, ho.plain, hm₀.plain, hm₁.plain]) hconstant
    simp +decide only [toString, plain_append_iff, htext, hsymbol, and_self]
  · intro values hvalues
    exact ⟨hl.verified_eq values hvalues, hr.verified_eq values hvalues,
      ho.verified_eq values hvalues, hm₀.verified_eq values hvalues,
      hm₁.verified_eq values hvalues⟩

/-- After a visit that finds the gate violated, its description has a number for every operand
    and no placeholder.  The numbers are those of the verifier for every complete assignment
    that keeps the solved wires, and they violate the gate; so no such assignment satisfies
    it. -/
theorem unsatisfied_diagnosed {ctx : Context c} {g : Gate k} {st st' : SolveState c}
    (hexec : exec (g.solve ctx) st = (.ok .unsatisfied, st')) :
    ∃ text, g.describe ctx.table st'.solution = .ok text ∧
      ¬unsolvedText.toList <:+: text.toList ∧ g.Diagnosis ctx.table st'.solution text ∧
      ∀ values, st'.solution.CompletedBy values →
        ∃ x, g.residual ctx.table (evalTerm ctx.table values) = .ok x ∧ x ≠ 0 := by
  have hdecided := decided_of_solve hexec nofun
  have htext : ∃ text, g.describe ctx.table st'.solution = .ok text ∧ Plain text ∧
      g.Diagnosis ctx.table st'.solution text := by
    -- what is shown depends on the kind
    cases g with
    | rankOne g => exact diagnosed_rankOne (concludes_rankOne hexec).1 hdecided
    | sparse g => exact diagnosed_sparse hdecided
  obtain ⟨text, hdescribe, hplain, hdiagnosis⟩ := htext
  refine ⟨text, hdescribe, hplain.not_unsolved, hdiagnosis, ?_⟩
  intro values hvalues
  -- a completion has all the wires, so that the residual is defined
  have hbounds := hdecided.inBounds
  rw [← hvalues.size_eq] at hbounds
  refine ⟨_, Gate.residual_eq_ok_iff.2 ⟨hbounds, rfl⟩, ?_⟩
  intro hzero
  cases (hdecided.satisfied_iff _ hvalues.agrees).2 hzero

/-- `x ⋅ 0 ⋅ y = 2`, with a coefficient zero before `y`. -/
def RankOne.contrary : RankOne :=
  ⟨⟨[⟨.one, ⟨1⟩, .internal⟩]⟩, ⟨[⟨.zero, ⟨2⟩, .internal⟩]⟩, ⟨[.constant .two]⟩⟩

/-- Neither `x` nor `y` is solved. -/
def SolveState.blank : SolveState .bn254 :=
  ⟨⟨#[1, 0, 0], #[true, false, false], 1, rfl⟩, default, #[]⟩

/-- No constants but the reserved ones, and no hints. -/
def Context.bare : Context .bn254 := ⟨.new, ⟨[]⟩, .empty⟩

/-- `x` is set to zero, `y` is still unsolved, and no value of `y` helps. -/
theorem unsatisfied_diagnosed_sample :
    let solution := ⟨#[1, 0, 0], #[true, true, false], 2, rfl⟩
    exec (RankOne.contrary.solve .bare) .blank =
        (.ok .unsatisfied, { SolveState.blank with solution }) ∧
      RankOne.contrary.describe .new solution = .ok "0 ⋅ 0 != 2 in (w1) ⋅ (0⋅w2) = 2" ∧
      ∃ x, RankOne.contrary.residual (evalTerm (c := .bn254) .new #[1, 0, 7]) = .ok x ∧ x ≠ 0 := by
  intro solution
  have hexec : exec (RankOne.contrary.solve .bare) .blank =
      (.ok .unsatisfied, { SolveState.blank with solution }) := rfl
  obtain ⟨-, -, -, -, hviolated⟩ := unsatisfied_diagnosed (g := .rankOne .contrary) hexec
  have hdescribe : RankOne.contrary.describe .new solution =
      .ok "0 ⋅ 0 != 2 in (w1) ⋅ (0⋅w2) = 2" := by cbv
  exact ⟨hexec, hdescribe, hviolated #[1, 0, 7] (by decide)⟩

end CircuitWitness
