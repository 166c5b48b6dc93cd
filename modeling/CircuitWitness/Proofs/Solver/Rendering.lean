import CircuitWitness.Proofs.Circuit.Construction
import CircuitWitness.Proofs.Circuit.Symbols
import CircuitWitness.Proofs.Circuit.WellFormed
import CircuitWitness.Proofs.Solver.Knowledge
import CircuitWitness.Solver.Run

/-! # Rendering comes to an end

    Log lines, diagnostics and gates are rendered from whatever is solved at the
    time.  What the terms refer to has to exist, but none of their wires has to
    be solved.
-/

namespace CircuitWitness

variable {c : Curve} {k : Kind} {table : CoefficientTable c}

/-! ## Symbols -/

theorem exists_value {id : CoeffId} (h : id.index < table.size) : ∃ x, table.value id = .ok x :=
  ⟨_, CoefficientTable.value_eq_ok_iff.2 ⟨h, rfl⟩⟩

theorem exists_constantText {id : CoeffId} (h : id.index < table.size) :
    ∃ text, table.constantText id = .ok text :=
  ⟨_, CoefficientTable.constantText_eq_ok_iff.2 ⟨h, rfl⟩⟩

theorem exists_symbolic {t : Term} (h : t.coeff.index < table.size) :
    ∃ text, t.symbolic table = .ok text :=
  ⟨_, Term.symbolic_eq_ok_iff.2 ⟨h, rfl⟩⟩

theorem exists_symbolic_combination {lc : LinearCombination}
    (h : ∀ t ∈ lc.terms, t.coeff.index < table.size) :
    ∃ text, lc.symbolic table = .ok text :=
  ⟨_, LinearCombination.symbolic_eq_ok_iff.2 ⟨h, rfl⟩⟩

namespace Solution

variable {s : Solution c}

/-! ## Values -/

theorem exists_computeTerm {t : Term} (ht : t.InBounds table s.nWires) (hk : s.Known t) :
    ∃ x, s.computeTerm table t = .ok x :=
  ⟨_, (computeTerm_eq_ok_iff s.agrees_complete).2 ⟨⟨ht.1, hk⟩, rfl⟩⟩

theorem exists_computeKnown {t : Term} (ht : t.InBounds table s.nWires) :
    ∃ o, s.computeKnown table t = .ok o := by
  unfold computeKnown
  apply exists_bind (exists_isKnown ht)
  intro b hb
  cases b with
  | true =>
    have hx := exists_computeTerm ht (isKnown_true_iff.1 hb)
    exact exists_bind hx fun _ _ => ⟨_, rfl⟩
  | false => exact ⟨none, rfl⟩

theorem exists_evaluateFrom {terms : List Term} (h : ∀ t ∈ terms, t.InBounds table s.nWires)
    (sum : Scalar c) : ∃ o, s.evaluateFrom table sum terms = .ok o := by
  induction terms generalizing sum with
  | nil => exact ⟨_, rfl⟩
  | cons t rest ih =>
    rw [evaluateFrom]
    apply exists_bind (exists_computeKnown (h t List.mem_cons_self))
    intro o _
    cases o with
    | some x => exact ih (fun u hu => h u (List.mem_cons_of_mem _ hu)) (sum + x)
    | none => exact ⟨none, rfl⟩

/-! ## Entries -/

theorem exists_addToSpan {t : Term} (ht : t.InBounds table s.nWires) (sum : Option (Scalar c)) :
    ∃ o, s.addToSpan table sum t = .ok o := by
  unfold addToSpan
  cases sum with
  | none => exact exists_bind (exists_isKnown ht) fun _ _ => ⟨none, rfl⟩
  | some v =>
    apply exists_bind (exists_isKnown ht)
    intro b hb
    cases b with
    | true =>
      have hx := exists_computeTerm ht (isKnown_true_iff.1 hb)
      exact exists_bind hx fun _ _ => ⟨_, rfl⟩
    | false => exact ⟨none, rfl⟩

theorem exists_termPieces {t : Term} (ht : t.InBounds table s.nWires) :
    ∃ pieces, s.termPieces table t = .ok pieces := by
  unfold termPieces
  split
  · exact exists_bind (exists_constantText ht.1) fun _ _ => ⟨_, rfl⟩
  · rename_i hvirt
    have hwire := ht.2 (by simpa using hvirt)
    have hvalue : ∃ o, s.value t.wire = .ok o := ⟨_, value_eq_ok_iff.2 ⟨hwire, rfl⟩⟩
    have hlast : ∀ texts : List String, ∃ pieces : List String,
        (do return texts ++ [valueText (← s.value t.wire)] : Except Fault (List String)) =
          .ok pieces :=
      fun _ => exists_bind hvalue fun _ _ => ⟨_, rfl⟩
    split
    · exact hlast []
    · exact exists_bind (exists_value ht.1) fun x _ => hlast [x.decimal]

theorem exists_pieces {terms : List Term}
    (h : ∀ t ∈ terms, t.isDelimiter = false → t.InBounds table s.nWires)
    (span : Option (Option (Scalar c))) : ∃ texts, s.pieces table span terms = .ok texts := by
  -- a delimiter opens or closes a span of terms that are added up
  induction terms generalizing span with
  | nil =>
    cases span with
    | none => exact ⟨_, rfl⟩
    | some sum => exact ⟨_, rfl⟩
  | cons t rest ih =>
    have hrest := fun span => ih (fun u hu => h u (List.mem_cons_of_mem _ hu)) span
    have ht := h t List.mem_cons_self
    cases span with
    | none =>
      rw [pieces]
      cases hd : t.isDelimiter with
      | true => exact hrest _
      | false =>
        apply exists_bind (exists_termPieces (ht hd))
        intro first _
        exact exists_bind (hrest none) fun _ _ => ⟨_, rfl⟩
    | some sum =>
      rw [pieces]
      cases hd : t.isDelimiter with
      | true => exact exists_bind (hrest none) fun _ _ => ⟨_, rfl⟩
      | false =>
        apply exists_bind (exists_addToSpan (ht hd) sum)
        intro sum' _
        exact hrest (some sum')

theorem exists_render {entry : LogEntry}
    (h : ∀ t ∈ entry.terms, t.isDelimiter = false → t.InBounds table s.nWires) :
    ∃ line, s.render table entry = .ok line := by
  unfold render
  exact exists_bind (exists_pieces h none) fun _ _ => ⟨_, rfl⟩

end Solution

/-! ## Gates -/

theorem exists_describe {s : Solution c} {g : Gate k} (h : g.InBounds table s.nWires) :
    ∃ text, g.describe table s = .ok text := by
  cases g with
  | rankOne g =>
    have hterms : ∀ x ∈ [g.l, g.r, g.o], ∀ t ∈ x.terms, t.InBounds table s.nWires := by
      intro x hx t ht
      apply h.1
      show t ∈ g.terms
      simp only [List.mem_cons, List.not_mem_nil, or_false] at hx
      rcases hx with rfl | rfl | rfl
      · simp [RankOne.terms, ht]
      · simp [RankOne.terms, ht]
      · simp [RankOne.terms, ht]
    have hvalue : ∀ x ∈ [g.l, g.r, g.o], ∃ o, s.evaluate table x = .ok o := fun x hx =>
      Solution.exists_evaluateFrom (hterms x hx) 0
    have htext : ∀ x ∈ [g.l, g.r, g.o], ∃ text, x.symbolic table = .ok text := fun x hx =>
      exists_symbolic_combination fun t ht => (hterms x hx t ht).1
    show ∃ text, g.describe table s = .ok text
    unfold RankOne.describe
    refine exists_bind (hvalue g.l (by simp)) fun _ _ => ?_
    refine exists_bind (hvalue g.r (by simp)) fun _ _ => ?_
    refine exists_bind (hvalue g.o (by simp)) fun _ _ => ?_
    refine exists_bind (htext g.l (by simp)) fun _ _ => ?_
    refine exists_bind (htext g.r (by simp)) fun _ _ => ?_
    exact exists_bind (htext g.o (by simp)) fun _ _ => ⟨_, rfl⟩
  | sparse g =>
    have hmem : ∀ t ∈ #v[g.l, g.r, g.o, g.m₀, g.m₁], t.InBounds table s.nWires := by
      intro t ht
      apply h.1
      show t ∈ g.terms
      simpa [SparseGate.terms] using ht
    have hk : g.k.index < table.size := h.2 g.k (by simp [Gate.extraCoefficients])
    show ∃ text, g.describe table s = .ok text
    unfold SparseGate.describe
    refine exists_bind (exists_value hk) fun _ _ => ?_
    refine exists_bind (exists_mapM_vector fun t ht => ?_) fun _ _ => ?_
    · exact exists_bind (Solution.exists_computeKnown (hmem t ht)) fun _ _ => ⟨_, rfl⟩
    · refine exists_bind (exists_mapM_vector fun t ht => ?_) fun _ _ => ⟨_, rfl⟩
      exact exists_symbolic (hmem t ht).1

namespace Circuit

theorem EntryFits.inBounds {s : Circuit c k} {entry : LogEntry} (h : s.EntryFits entry) :
    ∀ t ∈ entry.terms, t.isDelimiter = false → t.InBounds s.table s.nWires :=
  fun t ht hd => (h t ht hd).inBounds

/-- Whatever is solved, a failing gate of a well-formed circuit can be diagnosed. -/
theorem exists_diagnose {s : Circuit c k} (hs : s.WellFormed) {solution : Solution c}
    (hn : solution.nWires = s.nWires) {i : Nat} {g : Gate k} (hgate : s.gates[i]? = some g) :
    ∃ text, s.diagnose i g solution = .ok text := by
  unfold diagnose
  -- the failed gate is shown by its debug entry, or by its numbers
  cases hdebug : s.debugInfo? i with
  | some entry =>
    have hfits := (hs.debugInfo _ (Assoc.mem_of_lookup hdebug)).2
    apply Solution.exists_render
    rw [hn]
    exact hfits.inBounds
  | none =>
    apply exists_describe
    rw [hn]
    exact (hs.gates g (Array.mem_toList_iff.2 (Array.mem_of_getElem? hgate))).inBounds

end Circuit

end CircuitWitness
