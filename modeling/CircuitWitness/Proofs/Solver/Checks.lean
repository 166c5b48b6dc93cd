import CircuitWitness.Proofs.Solver.Knowledge
import CircuitWitness.Solver.HintCall
import Mathlib.Data.List.Nodup

/-! # The checks of a hint call

    A function takes a call if it has the identifier of the call and the shape of the call
    is one of its own.  Then the inputs are read one after another, up to the first that
    blocks: it has no terms, or one of its terms is on an unsolved wire.
-/

namespace CircuitWitness

variable {c : Curve}

/-! ## Hint tables -/

/-- A function whose identifier is free can join functions with identifiers of their own. -/
theorem HintFunction.nodup_append {functions : List HintFunction} {h : HintFunction}
    (hfree : functions.find? (fun g => g.id == h.id) = none)
    (hids : (functions.map HintFunction.id).Nodup) :
    ((functions ++ [h]).map HintFunction.id).Nodup := by
  have hout : ∀ g ∈ functions, g.id ≠ h.id := by
    intro g hg
    simpa using List.find?_eq_none.1 hfree g hg
  rw [List.map_append, List.nodup_append]
  refine ⟨hids, List.nodup_singleton _, ?_⟩
  intro id hid id' hid' heq
  obtain ⟨g, hg, hgid⟩ := List.mem_map.1 hid
  have hid'' : id' = h.id := by simpa using hid'
  exact hout g hg (hgid.trans (heq.trans hid''))

namespace HintTable

theorem nodup_of_add {t t' : HintTable} {h : HintFunction} (hadd : t.add h = .ok t')
    (ht : (t.functions.map HintFunction.id).Nodup) :
    t'.functions = t.functions ++ [h] ∧ (t'.functions.map HintFunction.id).Nodup := by
  unfold add at hadd
  split at hadd
  · cases hadd
  · rename_i hfree
    cases hadd
    have hnone : t.find? h.id = none := by simpa using hfree
    exact ⟨rfl, HintFunction.nodup_append hnone ht⟩

/-- A table that was made of a list holds its functions, no two with one identifier. -/
theorem of_ofList {functions : List HintFunction} {t : HintTable}
    (h : ofList functions = .ok t) :
    t.functions = functions ∧ (t.functions.map HintFunction.id).Nodup := by
  -- the functions enter one by one behind those that the table has
  have hfold : ∀ (l : List HintFunction) (t₀ : HintTable),
      (t₀.functions.map HintFunction.id).Nodup → l.foldlM add t₀ = .ok t →
        t.functions = t₀.functions ++ l ∧ (t.functions.map HintFunction.id).Nodup := by
    intro l
    induction l with
    | nil =>
      intro t₀ ht₀ hfold
      cases hfold
      exact ⟨(List.append_nil _).symm, ht₀⟩
    | cons g rest ih =>
      intro t₀ ht₀ hfold
      rw [List.foldlM_cons, bind_eq_ok_iff] at hfold
      obtain ⟨t₁, hadd, hfold⟩ := hfold
      obtain ⟨heq, ht₁⟩ := nodup_of_add hadd ht₀
      obtain ⟨heq', ht⟩ := ih t₁ ht₁ hfold
      refine ⟨?_, ht⟩
      rw [heq', heq, List.append_assoc]
      rfl
  have hall := hfold functions ⟨[]⟩ List.nodup_nil h
  rw [List.nil_append] at hall
  exact hall

/-- A table is refused because two functions have one identifier. -/
theorem eq_duplicateHint_of_ofList {functions : List HintFunction} {e : SolverError}
    (h : ofList functions = .error e) : ∃ id name, e = .duplicateHint id name := by
  -- whatever is in the table, only a repeated identity is refused
  have hfold : ∀ (l : List HintFunction) (t : HintTable), l.foldlM add t = .error e →
      ∃ id name, e = .duplicateHint id name := by
    intro l
    induction l with
    | nil =>
      intro t habs
      cases habs
    | cons g rest ih =>
      intro t hfold
      rw [List.foldlM_cons, bind_eq_error_iff] at hfold
      rcases hfold with hadd | ⟨t', -, hfold⟩
      · unfold add at hadd
        split at hadd
        · cases hadd
          exact ⟨_, _, rfl⟩
        · cases hadd
      · exact ih t' hfold
  exact hfold functions ⟨[]⟩ h

/-- The function of an identifier is the only one that has it. -/
theorem find?_eq_some_iff {t : HintTable} (ht : (t.functions.map HintFunction.id).Nodup)
    {id : HintId} {h : HintFunction} :
    t.find? id = some h ↔ h ∈ t.functions ∧ h.id = id := by
  unfold find?
  constructor
  · intro hfind
    exact ⟨List.mem_of_find?_eq_some hfind, by simpa using List.find?_some hfind⟩
  · intro ⟨hmem, hid⟩
    -- identities do not repeat, so that no other function is found first
    cases hfind : t.functions.find? fun g => g.id == id with
    | none =>
      have habs := List.find?_eq_none.1 hfind h hmem
      simp [hid] at habs
    | some g =>
      have hg := List.mem_of_find?_eq_some hfind
      have hgid : g.id = id := by simpa using List.find?_some hfind
      exact congrArg some (List.inj_on_of_nodup_map ht hg hmem (hgid.trans hid.symm))

theorem handler_eq_ok_iff {t : HintTable} {w : WireId} {call : HintCall}
    {h : HintFunction} :
    t.handler w call = .ok h ↔ t.find? call.id = some h ∧
      h.arity.accepts call.inputs.length = true ∧
      h.nOutputs call.inputs.length = call.wires.length := by
  unfold handler
  cases t.find? call.id with
  | none => simp
  | some g =>
    simp only [Option.some.injEq]
    split
    · rename_i n harity hacc
      constructor
      · intro habs
        cases habs
      · intro ⟨hgh, hacc', _⟩
        rw [← hgh, hacc] at hacc'
        cases hacc'
    · -- no fixed arity disagrees with the inputs, so the function accepts them
      rename_i hnot
      have hacc : g.arity.accepts call.inputs.length = true := by
        cases harity : g.arity with
        | any => rfl
        | fixed n =>
          by_contra hfalse
          exact hnot n harity (by simpa [harity] using hfalse)
      by_cases hout : g.nOutputs call.inputs.length = call.wires.length
      · rw [if_neg (not_not.2 hout)]
        constructor
        · intro hgh
          cases hgh
          exact ⟨rfl, hacc, hout⟩
        · intro ⟨hgh, _⟩
          rw [hgh]
      · rw [if_pos hout]
        constructor
        · intro habs
          cases habs
        · intro ⟨hgh, _, hout'⟩
          exact absurd (hgh ▸ hout') hout

end HintTable

/-! ## Taking a call -/

namespace HintTable

variable {t : HintTable} {w : WireId} {call : HintCall}

/-- Why no function takes a call for `w`, in the order of the checks. -/
inductive Rejects (t : HintTable) (w : WireId) (call : HintCall) : SolverError → Prop where
  | missing (hfind : t.find? call.id = none) : Rejects t w call (.missingHint call.id w)
  | inputs {h : HintFunction} {n : Nat} (hfind : t.find? call.id = some h)
      (harity : h.arity = .fixed n) (hcount : call.inputs.length ≠ n) :
      Rejects t w call (.hintArity h.name .inputs n call.inputs.length)
  | outputs {h : HintFunction} (hfind : t.find? call.id = some h)
      (haccepts : h.arity.accepts call.inputs.length = true)
      (hcount : h.nOutputs call.inputs.length ≠ call.wires.length) :
      Rejects t w call
        (.hintArity h.name .outputs (h.nOutputs call.inputs.length) call.wires.length)

/-- The function takes the call. -/
structure Takes (t : HintTable) (call : HintCall) (h : HintFunction) : Prop where
  find : t.find? call.id = some h
  inputs : h.arity.accepts call.inputs.length = true
  outputs : h.nOutputs call.inputs.length = call.wires.length

theorem handler_eq_ok_iff_takes {h : HintFunction} : t.handler w call = .ok h ↔ t.Takes call h :=
  handler_eq_ok_iff.trans
    ⟨fun ⟨hfind, hin, hout⟩ => ⟨hfind, hin, hout⟩, fun ⟨hfind, hin, hout⟩ => ⟨hfind, hin, hout⟩⟩

theorem handler_eq_error_iff {e : SolverError} :
    t.handler w call = .error e ↔ t.Rejects w call e := by
  constructor
  · intro h
    unfold handler at h
    -- the identity is looked up, then the inputs are counted, then the outputs
    cases hfind : t.find? call.id with
    | none =>
      rw [hfind] at h
      cases h
      exact .missing hfind
    | some g =>
      rw [hfind] at h
      simp only at h
      split at h
      · rename_i n harity haccepts
        cases h
        refine .inputs hfind harity ?_
        rw [harity, Arity.accepts, beq_eq_false_iff_ne] at haccepts
        exact haccepts.symm
      · rename_i hnot
        split at h
        · rename_i hcount
          cases h
          refine .outputs hfind ?_ hcount
          cases harity : g.arity with
          | any => rfl
          | fixed n =>
            by_contra hfalse
            exact hnot n harity (by simpa [harity] using hfalse)
        · cases h
  · intro h
    unfold handler
    cases h with
    | missing hfind => rw [hfind]
    | inputs hfind harity hcount =>
      have haccepts : Arity.accepts (.fixed _) call.inputs.length = false :=
        beq_eq_false_iff_ne.2 hcount.symm
      simp only [hfind, harity, haccepts]
    | @outputs h hfind haccepts hcount =>
      simp only [hfind, haccepts]
      cases h.arity <;> simp [hcount]

end HintTable

/-! ## Reading inputs -/

namespace Solution

/-- The term can be read into an input: unlike a known term, it needs its wire
    whatever its coefficient. -/
def Readable (table : CoefficientTable c) (s : Solution c) (t : Term) : Prop :=
  t.coeff.index < table.size ∧ (t.isVirtual = false → (s.get? t.wire).isSome)

theorem Readable.known {table : CoefficientTable c} {s : Solution c} {t : Term}
    (h : s.Readable table t) : s.Known t := by
  cases hv : t.isVirtual with
  | true => exact .inl hv
  | false => exact .inr (.inr (h.2 hv))

theorem Readable.inBounds {table : CoefficientTable c} {s : Solution c} {t : Term}
    (h : s.Readable table t) : t.InBounds table s.nWires := by
  refine ⟨h.1, ?_⟩
  intro hv
  obtain ⟨x, hx⟩ := Option.isSome_iff_exists.1 (h.2 hv)
  exact lt_of_get? hx

theorem Readable.of_extends {table : CoefficientTable c} {s t : Solution c} {term : Term}
    (h : s.Readable table term) (hext : s.Extends t) : t.Readable table term :=
  ⟨h.1, fun hv => hext.isSome (h.2 hv)⟩

/-- Every term of the combination can be read, and there is one. -/
def ReadableSum (table : CoefficientTable c) (s : Solution c) (lc : LinearCombination) : Prop :=
  lc.terms ≠ [] ∧ ∀ t ∈ lc.terms, s.Readable table t

theorem readTerms_eq_ok_iff {table : CoefficientTable c} {s : Solution c} {v : Valuation c}
    (hv : v.Agrees s) {id : HintId} {terms : List Term} {sum x : Scalar c} :
    s.readTerms table id sum terms = .ok x ↔
      (∀ t ∈ terms, s.Readable table t) ∧ sum + denoteSum table v terms = x := by
  -- the recursion carries the sum so far
  induction terms generalizing sum with
  | nil => simp [readTerms]
  | cons t rest ih =>
    have hcompute : ∀ y, s.computeTerm table t = .ok y ↔ _ := fun y => computeTerm_eq_ok_iff hv
    have hsum : ∀ a b d : Scalar c, a + b + d = a + (b + d) := add_assoc
    rw [readTerms, List.forall_mem_cons, denoteSum_cons]
    by_cases hvirt : t.isVirtual = true
    · simp only [hvirt, Bool.not_true, Bool.false_eq_true, if_false, bind_eq_ok_iff,
        liftM_eq_mapError, mapError_eq_ok_iff, hcompute, ih]
      constructor
      · intro ⟨y, ⟨⟨hk, _⟩, hy⟩, hrest, hx⟩
        exact ⟨⟨⟨hk, fun hf => by simp [hvirt] at hf⟩, hrest⟩, by rw [← hx, ← hy, hsum]⟩
      · intro ⟨⟨hread, hrest⟩, hx⟩
        exact ⟨_, ⟨⟨hread.1, hread.known⟩, rfl⟩, hrest, by rw [← hx, hsum]⟩
    · have hreal : t.isVirtual = false := by simpa using hvirt
      simp only [hreal, Bool.not_false, if_true, bind_eq_ok_iff, liftM_eq_mapError,
        mapError_eq_ok_iff, isSolved_eq_ok_iff]
      constructor
      · intro ⟨b, ⟨_, hb⟩, hstep⟩
        -- a wire that is unsolved stops the call
        cases b with
        | false =>
          simp only [Bool.not_false, if_true] at hstep
          obtain ⟨_, habs, _⟩ := bind_eq_ok_iff.1 hstep
          cases habs
        | true =>
          simp only [Bool.not_true, Bool.false_eq_true, if_false, bind_eq_ok_iff,
            mapError_eq_ok_iff, hcompute, ih] at hstep
          obtain ⟨y, ⟨⟨hk, _⟩, hy⟩, hrest, hx⟩ := hstep
          exact ⟨⟨⟨hk, fun _ => hb⟩, hrest⟩, by rw [← hx, ← hy, hsum]⟩
      · intro ⟨⟨hread, hrest⟩, hx⟩
        have hsome := hread.2 hreal
        refine ⟨true, ⟨hread.inBounds.2 hreal, hsome⟩, ?_⟩
        simp only [Bool.not_true, Bool.false_eq_true, if_false, bind_eq_ok_iff,
          mapError_eq_ok_iff, hcompute, ih]
        exact ⟨_, ⟨⟨hread.1, hread.known⟩, rfl⟩, hrest, by rw [← hx, hsum]⟩

theorem readInput_eq_ok_iff {table : CoefficientTable c} {s : Solution c} {v : Valuation c}
    (hv : v.Agrees s) {id : HintId} {lc : LinearCombination} {n : Nat} :
    s.readInput table id lc = .ok n ↔
      s.ReadableSum table lc ∧ (denoteSum table v lc.terms).val = n := by
  unfold readInput ReadableSum
  rw [check_bind_eq_ok_iff, liftM_eq_mapError, mapError_eq_ok_iff,
    LinearCombination.assertSet_eq_ok_iff, bind_eq_ok_iff]
  simp only [readTerms_eq_ok_iff hv, pure_eq_ok_iff, zero_add]
  constructor
  · intro ⟨hne, x, ⟨hread, hx⟩, hn⟩
    exact ⟨⟨hne, hread⟩, by rw [hx, hn]⟩
  · intro ⟨⟨hne, hread⟩, hn⟩
    exact ⟨hne, _, ⟨hread, rfl⟩, hn⟩

end Solution

/-- The integers that the inputs of a call stand for. -/
def inputValues (table : CoefficientTable c) (v : Valuation c) (inputs : List LinearCombination) :
    List Nat :=
  inputs.map fun lc => (denoteSum table v lc.terms).val

namespace Solution

theorem readInputs_eq_ok_iff {table : CoefficientTable c} {s : Solution c} {v : Valuation c}
    (hv : v.Agrees s) {id : HintId} {inputs : List LinearCombination} {xs : List Nat} :
    s.readInputs table id inputs = (.ok (), xs) ↔
      (∀ lc ∈ inputs, s.ReadableSum table lc) ∧ inputValues table v inputs = xs := by
  induction inputs generalizing xs with
  | nil => simp [readInputs, inputValues]
  | cons lc rest ih =>
    rw [readInputs, List.forall_mem_cons]
    -- the first input that cannot be read ends the reading
    cases hin : s.readInput table id lc with
    | error stop =>
      have hnot : ¬s.ReadableSum table lc := by
        intro hread
        have hok : s.readInput table id lc = .ok _ := (readInput_eq_ok_iff hv).2 ⟨hread, rfl⟩
        rw [hin] at hok
        cases hok
      simp [hnot]
    | ok x =>
      obtain ⟨hread, hx⟩ := (readInput_eq_ok_iff hv).1 hin
      cases hrest : s.readInputs table id rest with
      | mk r ys =>
        rw [hrest] at ih
        simp only [Prod.mk.injEq, inputValues, List.map_cons, hx]
        constructor
        · intro ⟨hr, hxs⟩
          have hpair : (r, ys) = (.ok (), ys) := by rw [hr]
          obtain ⟨hall, hys⟩ := ih.1 hpair
          exact ⟨⟨hread, hall⟩, by rw [← hxs, ← hys]; rfl⟩
        · intro ⟨⟨_, hall⟩, hxs⟩
          have hpair : (r, ys) = (.ok (), inputValues table v rest) := ih.2 ⟨hall, rfl⟩
          obtain ⟨hr, hys⟩ := Prod.mk.inj hpair
          exact ⟨hr, by rw [hys, ← hxs]; rfl⟩

end Solution

/-! ## What blocks an input -/

namespace Solution

/-- What stops the reading of an input: it has no terms, or its first term that cannot be
    read is on an unsolved wire. -/
inductive Blocks (table : CoefficientTable c) (s : Solution c) (id : HintId)
    (lc : LinearCombination) : Stop SolverError → Prop where
  | unset (hterms : lc.terms = []) : Blocks table s id lc (.fault .unsetCombination)
  | unresolved {earlier later : List Term} {t : Term} (hterms : lc.terms = earlier ++ t :: later)
      (hearlier : ∀ u ∈ earlier, s.Readable table u) (hreal : t.isVirtual = false)
      (hunsolved : s.get? t.wire = none) :
      Blocks table s id lc (.error (.unresolvedDependency t.wire id))

/-- Stops at a term on an unsolved wire, whatever its coefficient. -/
def demandTerm (s : Solution c) (id : HintId) (t : Term) : Except (Stop SolverError) Unit :=
  if t.isVirtual = false ∧ s.get? t.wire = none then
    .error (.error (.unresolvedDependency t.wire id))
  else .ok ()

/-- Stops at an input that cannot be read. -/
def demandInput (s : Solution c) (id : HintId) (lc : LinearCombination) :
    Except (Stop SolverError) Unit := do
  lc.assertSet
  lc.terms.forM (s.demandTerm id)

section Demand

variable {table : CoefficientTable c} {s : Solution c} {id : HintId}

theorem demandTerm_eq_ok_iff {t : Term} (hcoeff : t.coeff.index < table.size) :
    s.demandTerm id t = .ok () ↔ s.Readable table t := by
  unfold demandTerm Readable
  split
  · rename_i hunsolved
    simp [hunsolved]
  · rename_i hsolved
    simp only [hcoeff, true_and, true_iff]
    intro hreal
    exact Option.isSome_iff_ne_none.2 fun hnone => hsolved ⟨hreal, hnone⟩

/-- Terms in bounds are added up, unless one of them is on an unsolved wire. -/
theorem readTerms_eq {terms : List Term} (hb : ∀ t ∈ terms, t.InBounds table s.nWires)
    (sum : Scalar c) :
    s.readTerms table id sum terms =
      (terms.forM (s.demandTerm id)).map fun _ =>
        sum + denoteSum table (valuation s.complete) terms := by
  induction terms generalizing sum with
  | nil =>
    rw [denoteSum_nil, add_zero]
    rfl
  | cons t rest ih =>
    obtain ⟨ht, hrest⟩ := List.forall_mem_cons.1 hb
    -- once the term can be computed, only the rest can stop
    have hgo : s.Known t → (liftM (s.computeTerm table t) >>= fun y =>
        s.readTerms table id (sum + y) rest : Except (Stop SolverError) (Scalar c)) =
          (rest.forM (s.demandTerm id)).map fun _ =>
            sum + denoteSum table (valuation s.complete) (t :: rest) := by
      intro hk
      have hc := (computeTerm_eq_ok_iff s.agrees_complete).2 ⟨⟨ht.1, hk⟩, rfl⟩
      rw [hc, denoteSum_cons, ← add_assoc, ← ih hrest]
      rfl
    show _ = (s.demandTerm id t >>= fun _ => rest.forM (s.demandTerm id)).map _
    rw [readTerms, demandTerm]
    cases hvirt : t.isVirtual with
    | true =>
      rw [if_neg (by simp)]
      exact hgo (.inl hvirt)
    | false =>
      simp only [Bool.not_false, if_true, true_and]
      rw [isSolved_eq_ok_iff.2 ⟨ht.2 hvirt, rfl⟩]
      cases hget : s.get? t.wire with
      | some x =>
        rw [if_neg (by simp)]
        exact hgo (.inr (.inr (by rw [hget]; rfl)))
      | none => rfl

theorem readInput_eq {lc : LinearCombination} (hb : ∀ t ∈ lc.terms, t.InBounds table s.nWires) :
    s.readInput table id lc =
      (s.demandInput id lc).map fun _ =>
        (denoteSum table (valuation s.complete) lc.terms).val := by
  rw [readInput, demandInput, readTerms_eq hb, zero_add, liftM_eq_mapError]
  cases lc.assertSet with
  | error f => rfl
  | ok u => cases lc.terms.forM (s.demandTerm id) <;> rfl

theorem readInputs_fst {inputs : List LinearCombination}
    (hb : ∀ lc ∈ inputs, ∀ t ∈ lc.terms, t.InBounds table s.nWires) :
    (s.readInputs table id inputs).1 = inputs.forM (s.demandInput id) := by
  induction inputs with
  | nil => rfl
  | cons lc rest ih =>
    obtain ⟨hlc, hrest⟩ := List.forall_mem_cons.1 hb
    show _ = (s.demandInput id lc >>= fun _ => rest.forM (s.demandInput id))
    rw [readInputs, readInput_eq hlc, ← ih hrest]
    cases s.demandInput id lc <;> rfl

theorem demandInput_eq_ok_iff {lc : LinearCombination}
    (hb : ∀ t ∈ lc.terms, t.coeff.index < table.size) :
    s.demandInput id lc = .ok () ↔ s.ReadableSum table lc := by
  unfold demandInput ReadableSum
  rw [check_bind_eq_ok_iff, liftM_eq_mapError, mapError_eq_ok_iff,
    LinearCombination.assertSet_eq_ok_iff, forM_eq_ok_iff]
  exact and_congr_right' (forall₂_congr fun t ht => demandTerm_eq_ok_iff (hb t ht))

theorem demandInput_eq_error_iff {lc : LinearCombination} {stop : Stop SolverError}
    (hb : ∀ t ∈ lc.terms, t.coeff.index < table.size) :
    s.demandInput id lc = .error stop ↔ s.Blocks table id lc stop := by
  unfold demandInput
  rw [check_bind_eq_error_iff, liftM_eq_mapError, mapError_eq_error_iff, mapError_eq_ok_iff,
    forM_eq_error_iff]
  simp only [LinearCombination.assertSet_eq_error_iff, LinearCombination.assertSet_eq_ok_iff]
  constructor
  · -- an input without terms is refused before its terms are looked at
    rintro (⟨f, ⟨hterms, rfl⟩, rfl⟩ | ⟨-, earlier, t, later, hterms, hearlier, ht⟩)
    · exact .unset hterms
    · unfold demandTerm at ht
      split at ht
      · rename_i hunsolved
        cases ht
        refine .unresolved hterms ?_ hunsolved.1 hunsolved.2
        intro u hu
        exact (demandTerm_eq_ok_iff (hb u (by simp [hterms, hu]))).1 (hearlier u hu)
      · cases ht
  · intro h
    cases h with
    | unset hterms => exact .inl ⟨_, ⟨hterms, rfl⟩, rfl⟩
    | @unresolved earlier later t hterms hearlier hreal hunsolved =>
      refine .inr ⟨by simp [hterms], earlier, t, later, hterms, ?_, if_pos ⟨hreal, hunsolved⟩⟩
      intro u hu
      exact (demandTerm_eq_ok_iff (hearlier u hu).1).2 (hearlier u hu)

/-- The reading of the inputs stops at the first that cannot be read. -/
theorem readInputs_eq_error_iff {inputs : List LinearCombination} {stop : Stop SolverError}
    (hb : ∀ lc ∈ inputs, ∀ t ∈ lc.terms, t.InBounds table s.nWires) :
    (s.readInputs table id inputs).1 = .error stop ↔ ∃ before lc after,
      inputs = before ++ lc :: after ∧ (∀ b ∈ before, s.ReadableSum table b) ∧
        s.Blocks table id lc stop := by
  rw [readInputs_fst hb, forM_eq_error_iff]
  have hcoeffs : ∀ lc ∈ inputs, ∀ t ∈ lc.terms, t.coeff.index < table.size :=
    fun lc hlc t ht => (hb lc hlc t ht).1
  refine exists_congr fun before => exists_congr fun lc => exists_congr fun after => ?_
  refine and_congr_right fun hinputs => ?_
  -- the inputs are checked in turn, and the ones before are ready to be read
  have hmem : ∀ b ∈ before, b ∈ inputs := fun b hb => by simp [hinputs, hb]
  have hlc : lc ∈ inputs := by simp [hinputs]
  rw [demandInput_eq_error_iff (hcoeffs lc hlc)]
  exact and_congr_left' (forall₂_congr fun b hb => demandInput_eq_ok_iff (hcoeffs b (hmem b hb)))

end Demand

/-- Inputs in bounds fault only where one of them is unset. -/
theorem readInputs_faults {P : Fault → Prop} {table : CoefficientTable c} {s : Solution c}
    {id : HintId} {inputs : List LinearCombination}
    (hset : ∀ lc ∈ inputs, lc.terms ≠ [] ∨ P .unsetCombination)
    (hb : ∀ lc ∈ inputs, ∀ t ∈ lc.terms, t.InBounds table s.nWires) {f : Fault}
    (h : (s.readInputs table id inputs).1 = .error (.fault f)) : P f := by
  obtain ⟨before, lc, after, rfl, -, hblocks⟩ := (readInputs_eq_error_iff hb).1 h
  cases hblocks with
  | unset hterms => exact (hset lc (by simp)).resolve_left (not_not.2 hterms)

end Solution

end CircuitWitness
