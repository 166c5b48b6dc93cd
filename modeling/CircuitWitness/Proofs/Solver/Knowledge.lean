import CircuitWitness.Proofs.Circuit.Denotation
import CircuitWitness.Solver.Solution
import Mathlib.Logic.Function.Basic

/-! # What a solution knows

    A solution is seen through `Solution.get?`: the value of a wire that is
    solved.  One solution extends another if it has solved the same wires with
    the same values, and maybe more.  Every operation extends the solution, so
    a value that was known stays known.

    A valuation agrees with a solution if it gives the solved wires their values.
    Whatever is computed from the solution is the value under every valuation
    that agrees with it.
-/

namespace CircuitWitness

variable {c : Curve}

namespace Solution

/-- The value of a wire of the circuit that is solved: what is stored, if the flag is set. -/
def get? (s : Solution c) (w : WireId) : Option (Scalar c) :=
  if s.solved[w.index]? = some true then s.values[w.index]? else none

theorem lt_size_solved {s : Solution c} {w : WireId} (hw : w.index < s.nWires) :
    w.index < s.solved.size := by
  rw [s.size_solved]
  exact hw

/-- A wire has a flag exactly if it is a wire of the circuit. -/
theorem lt_of_getElem?_solved {s : Solution c} {w : WireId} {b : Bool}
    (h : s.solved[w.index]? = some b) : w.index < s.nWires := by
  obtain ⟨hlt, -⟩ := Array.getElem?_eq_some_iff.1 h
  rw [s.size_solved] at hlt
  exact hlt

theorem get?_eq_some_iff {s : Solution c} {w : WireId} {x : Scalar c} :
    s.get? w = some x ↔ s.solved[w.index]? = some true ∧ s.values[w.index]? = some x := by
  unfold get?
  split
  · rename_i hflag
    simp [hflag]
  · rename_i hflag
    simp [hflag]

/-- A value is stored for every wire, so the flag alone tells whether the wire has one. -/
theorem isSome_get?_eq {s : Solution c} {w : WireId} {b : Bool}
    (h : s.solved[w.index]? = some b) : (s.get? w).isSome = b := by
  have hlt : w.index < s.values.size := lt_of_getElem?_solved h
  unfold get?
  cases b with
  | true => simp [h, hlt]
  | false => simp [h]

theorem lt_of_get? {s : Solution c} {w : WireId} {x : Scalar c} (h : s.get? w = some x) :
    w.index < s.nWires :=
  lt_of_getElem?_solved (get?_eq_some_iff.1 h).1

theorem isSolved_eq_ok_iff {s : Solution c} {w : WireId} {b : Bool} :
    s.isSolved w = .ok b ↔ w.index < s.nWires ∧ (s.get? w).isSome = b := by
  unfold isSolved
  constructor
  · intro h
    split at h
    · rename_i flag hflag
      cases h
      exact ⟨lt_of_getElem?_solved hflag, isSome_get?_eq hflag⟩
    · cases h
  · rintro ⟨hlt, hsome⟩
    have hflag := Array.getElem?_eq_getElem (lt_size_solved hlt)
    rw [hflag, ← hsome, isSome_get?_eq hflag]

theorem value_eq_of_lt {s : Solution c} {w : WireId} (hlt : w.index < s.nWires) :
    s.value w = .ok (s.get? w) := by
  have hsize := lt_size_solved hlt
  have hflag := Array.getElem?_eq_getElem hsize
  have hstored : s.values[w.index]? = some s.values[w.index] := Array.getElem?_eq_getElem hlt
  unfold value isSolved get?
  rw [hflag, hstored]
  cases s.solved[w.index] with
  | true => rfl
  | false => rfl

theorem value_eq_ok_iff {s : Solution c} {w : WireId} {o : Option (Scalar c)} :
    s.value w = .ok o ↔ w.index < s.nWires ∧ s.get? w = o := by
  constructor
  · intro h
    obtain ⟨b, hb, -⟩ := bind_eq_ok_iff.1 h
    have hlt := (isSolved_eq_ok_iff.1 hb).1
    rw [value_eq_of_lt hlt] at h
    exact ⟨hlt, Except.ok.inj h⟩
  · rintro ⟨hlt, hget⟩
    rw [value_eq_of_lt hlt, hget]

/-- Only a wire that does not exist is not told to be solved or unsolved. -/
theorem isSolved_eq_error {s : Solution c} {w : WireId} {f : Fault}
    (h : s.isSolved w = .error f) : f = .outOfBounds := by
  unfold isSolved at h
  split at h
  · cases h
  · cases h
    rfl

@[simp] theorem get?_unsolved (n : Nat) (w : WireId) : (unsolved n : Solution c).get? w = none := by
  simp [get?, unsolved, Array.getElem?_replicate]

@[simp] theorem nWires_unsolved (n : Nat) : (unsolved n : Solution c).nWires = n := by
  simp [nWires, unsolved]

/-! ## Solving a wire -/

theorem get?_of_set {s t : Solution c} {w : WireId} {x : Scalar c} (h : s.set w x = .ok t)
    (u : WireId) : t.get? u = if u = w then some x else s.get? u := by
  obtain ⟨hunsolved, rfl⟩ := set_eq_ok_iff.1 h
  have hlt := lt_of_getElem?_solved hunsolved
  by_cases hu : u = w
  · subst hu
    rw [if_pos rfl, get?_eq_some_iff]
    have hstored : u.index < s.values.size := hlt
    simp [store, hstored, lt_size_solved hlt]
  · -- neither the flag nor the stored value of another wire changes
    have hne : w.index ≠ u.index := fun hi => hu (by cases u; cases w; cases hi; rfl)
    simp [get?, store, hu, hne]

theorem unsolved_of_set {s t : Solution c} {w : WireId} {x : Scalar c} (h : s.set w x = .ok t) :
    w.index < s.nWires ∧ s.get? w = none := by
  obtain ⟨hunsolved, -⟩ := set_eq_ok_iff.1 h
  exact ⟨lt_of_getElem?_solved hunsolved, by simpa using isSome_get?_eq hunsolved⟩

theorem exists_set {s : Solution c} {w : WireId} (hlt : w.index < s.nWires)
    (h : s.get? w = none) (x : Scalar c) : ∃ t, s.set w x = .ok t := by
  refine ⟨_, set_eq_ok_iff.2 ⟨?_, rfl⟩⟩
  have hflag := Array.getElem?_eq_getElem (lt_size_solved hlt)
  have hsome := isSome_get?_eq hflag
  rw [hflag, ← hsome, h]
  rfl

/-! ## The order of solutions -/

/-- `t` has the wires of `s`, and has solved those that `s` has, with the same
    values. -/
structure Extends (s t : Solution c) : Prop where
  nWires_eq : t.nWires = s.nWires
  keeps : ∀ w x, s.get? w = some x → t.get? w = some x

theorem Extends.refl (s : Solution c) : s.Extends s := ⟨rfl, fun _ _ h => h⟩

theorem Extends.trans {s t u : Solution c} (h : s.Extends t) (h' : t.Extends u) : s.Extends u :=
  ⟨h'.nWires_eq.trans h.nWires_eq, fun w x hx => h'.keeps w x (h.keeps w x hx)⟩

theorem Extends.isSome {s t : Solution c} (h : s.Extends t) {w : WireId}
    (hw : (s.get? w).isSome) : (t.get? w).isSome := by
  obtain ⟨x, hx⟩ := Option.isSome_iff_exists.1 hw
  rw [h.keeps w x hx]
  rfl

theorem extends_of_set {s t : Solution c} {w : WireId} {x : Scalar c} (h : s.set w x = .ok t) :
    s.Extends t := by
  constructor
  · exact nWires_set h
  · intro u y hu
    have hne : u ≠ w := by
      intro heq
      rw [heq, (unsolved_of_set h).2] at hu
      cases hu
    rw [get?_of_set h, if_neg hne, hu]

/-! ## Counting solved wires -/

/-- The number of flags that are set is the one that the solution keeps. -/
def Counted (s : Solution c) : Prop := s.nSolved = s.solved.countP id

theorem counted_unsolved (n : Nat) : (unsolved n : Solution c).Counted := by
  simp [Counted, unsolved, Array.countP_replicate]

theorem counted_of_set {s t : Solution c} {w : WireId} {x : Scalar c} (h : s.set w x = .ok t)
    (hs : s.Counted) : t.Counted := by
  obtain ⟨hunsolved, rfl⟩ := set_eq_ok_iff.1 h
  obtain ⟨hlt, hnone⟩ := Array.getElem?_eq_some_iff.1 hunsolved
  unfold Counted at hs ⊢
  -- the wire was not counted before
  simp only [store]
  rw [Array.setIfInBounds_def, dif_pos hlt, Array.countP_set hlt, hs]
  simp [hnone]

/-- The count is right, so that a valid solution has solved every wire. -/
theorem isValid_iff {s : Solution c} (hs : s.Counted) :
    s.isValid = true ↔ ∀ w : WireId, w.index < s.nWires → (s.get? w).isSome := by
  unfold isValid
  -- the count reaches the number of wires once every flag is up
  rw [beq_iff_eq, hs, ← s.size_solved, Array.countP_eq_size]
  constructor
  · intro hall w hw
    have hsize := lt_size_solved hw
    have hflag := Array.getElem?_eq_getElem hsize
    have hset : s.solved[w.index] = true := hall _ (Array.getElem_mem _)
    rw [hset] at hflag
    exact isSome_get?_eq hflag
  · intro hall b hb
    obtain ⟨i, hi, rfl⟩ := Array.mem_iff_getElem.1 hb
    have hlt : i < s.nWires := by rw [s.size_solved] at hi; exact hi
    rw [← isSome_get?_eq (w := ⟨i⟩) (Array.getElem?_eq_getElem hi)]
    exact hall ⟨i⟩ hlt

/-! ## What is stored for the others -/

/-- An unsolved wire still has the zero that was stored for it at first. -/
def Untouched (s : Solution c) : Prop :=
  ∀ w : WireId, w.index < s.nWires → s.get? w = none → s.values[w.index]? = some 0

theorem untouched_unsolved (n : Nat) : (unsolved n : Solution c).Untouched := by
  intro w hw _
  rw [nWires_unsolved] at hw
  simp [unsolved, hw]

theorem untouched_of_set {s t : Solution c} {w : WireId} {x : Scalar c} (h : s.set w x = .ok t)
    (hs : s.Untouched) : t.Untouched := by
  intro u hu hnone
  rw [get?_of_set h] at hnone
  split at hnone
  · cases hnone
  · -- a wire that is unsolved after the step is another one, and nothing was stored for it
    rename_i hne
    rw [nWires_set h] at hu
    obtain ⟨-, rfl⟩ := set_eq_ok_iff.1 h
    have hindex : w.index ≠ u.index := fun hi => hne (by cases u; cases w; cases hi; rfl)
    rw [← hs u hu hnone]
    simp [store, hindex]

/-! ## Solving several wires -/

theorem extends_setAll (s : Solution c) (l : List (WireId × Scalar c)) :
    s.Extends (s.setAll l).2 := by
  induction l generalizing s with
  | nil => exact .refl s
  | cons p rest ih =>
    obtain ⟨w, x⟩ := p
    rw [setAll]
    cases hset : s.set w x with
    | ok t => exact (extends_of_set hset).trans (ih t)
    | error f => exact .refl s

theorem extends_of_setAll {s t : Solution c} {l : List (WireId × Scalar c)}
    {r : Except Fault Unit} (h : s.setAll l = (r, t)) : s.Extends t := by
  have hext := extends_setAll s l
  rw [h] at hext
  exact hext

theorem counted_setAll {s : Solution c} (hs : s.Counted) (l : List (WireId × Scalar c)) :
    (s.setAll l).2.Counted := by
  induction l generalizing s with
  | nil => exact hs
  | cons p rest ih =>
    obtain ⟨w, x⟩ := p
    rw [setAll]
    cases hset : s.set w x with
    | ok t => exact ih (counted_of_set hset hs)
    | error f => exact hs

theorem counted_of_setAll {s t : Solution c} {l : List (WireId × Scalar c)}
    {r : Except Fault Unit} (h : s.setAll l = (r, t)) (hs : s.Counted) : t.Counted := by
  have hcount := counted_setAll hs l
  rw [h] at hcount
  exact hcount

theorem get?_setAll_of_ne {s : Solution c} {l : List (WireId × Scalar c)} {u : WireId}
    (hu : u ∉ l.map Prod.fst) : (s.setAll l).2.get? u = s.get? u := by
  induction l generalizing s with
  | nil => rfl
  | cons p rest ih =>
    obtain ⟨w, x⟩ := p
    rw [List.map_cons, List.mem_cons, not_or] at hu
    rw [setAll]
    -- the first wire is another one, and so are those of the rest
    cases hset : s.set w x with
    | ok t =>
      have ht := ih (s := t) hu.2
      rw [get?_of_set hset, if_neg hu.1] at ht
      exact ht
    | error f => rfl

theorem get?_of_setAll {s t : Solution c} {l : List (WireId × Scalar c)}
    (h : s.setAll l = (.ok (), t)) {w : WireId} {x : Scalar c} (hmem : (w, x) ∈ l) :
    s.get? w = none ∧ t.get? w = some x := by
  -- a wire is solved by its own pair, and no later pair changes it
  induction l generalizing s with
  | nil => cases hmem
  | cons p rest ih =>
    obtain ⟨u, y⟩ := p
    rw [setAll] at h
    cases hset : s.set u y with
    | error f =>
      rw [hset] at h
      cases h
    | ok s' =>
      rw [hset] at h
      rcases List.mem_cons.1 hmem with heq | hmem
      · cases heq
        have hs' : s'.get? w = some x := by rw [get?_of_set hset, if_pos rfl]
        have hext : s'.Extends (s'.setAll rest).2 := extends_setAll s' rest
        simp only at h
        rw [h] at hext
        exact ⟨(unsolved_of_set hset).2, hext.keeps w x hs'⟩
      · obtain ⟨hnone, hx⟩ := ih h hmem
        rw [get?_of_set hset] at hnone
        split at hnone
        · cases hnone
        · exact ⟨hnone, hx⟩

/-- Different wires that are unsolved can be solved together. -/
theorem exists_setAll {s : Solution c} {l : List (WireId × Scalar c)}
    (hnd : (l.map Prod.fst).Nodup)
    (hfree : ∀ w ∈ l.map Prod.fst, w.index < s.nWires ∧ s.get? w = none) :
    ∃ t, s.setAll l = (.ok (), t) := by
  -- solving one wire leaves the others unsolved, because they are different wires
  induction l generalizing s with
  | nil => exact ⟨s, rfl⟩
  | cons p rest ih =>
    obtain ⟨w, x⟩ := p
    rw [List.map_cons, List.nodup_cons] at hnd
    obtain ⟨hlt, hnone⟩ := hfree w (by simp)
    obtain ⟨s', hset⟩ := exists_set hlt hnone x
    rw [setAll, hset]
    refine ih hnd.2 ?_
    intro u hu
    obtain ⟨hult, hunone⟩ := hfree u (List.mem_cons_of_mem _ hu)
    have hne : u ≠ w := fun heq => hnd.1 (heq ▸ hu)
    refine ⟨by rw [nWires_set hset]; exact hult, ?_⟩
    rw [get?_of_set hset, if_neg hne, hunone]

end Solution

/-! ## Valuations that agree with a solution -/

/-- The valuation gives every solved wire its value. -/
def Valuation.Agrees (v : Valuation c) (s : Solution c) : Prop :=
  ∀ w x, s.get? w = some x → v w = x

theorem Valuation.Agrees.of_extends {v : Valuation c} {s t : Solution c} (hv : v.Agrees t)
    (h : s.Extends t) : v.Agrees s := fun w x hx => hv w x (h.keeps w x hx)

theorem Valuation.Agrees.set {v : Valuation c} {s t : Solution c} {w : WireId} {x : Scalar c}
    (hv : v.Agrees s) (hset : s.set w x = .ok t) (hx : v w = x) : v.Agrees t := by
  intro u y hu
  rw [Solution.get?_of_set hset] at hu
  split at hu
  · rename_i heq
    rw [heq, hx]
    exact Option.some.inj hu
  · exact hv u y hu

/-- A wire that is unsolved may have any value. -/
theorem Valuation.Agrees.update {v : Valuation c} {s : Solution c} (hv : v.Agrees s) {w : WireId}
    (hw : s.get? w = none) (x : Scalar c) : Valuation.Agrees (Function.update v w x) s := by
  intro u y hu
  have hne : u ≠ w := by
    intro heq
    rw [heq, hw] at hu
    cases hu
  rw [Function.update_of_ne hne]
  exact hv u y hu

namespace Solution

theorem getElem?_complete {s : Solution c} {w : WireId} {x : Scalar c} (h : s.get? w = some x) :
    s.complete[w.index]? = some x :=
  (get?_eq_some_iff.1 h).2

/-- A completed solution agrees with the solution. -/
theorem agrees_complete (s : Solution c) : (valuation s.complete).Agrees s := by
  intro w x hx
  rw [valuation, getElem?_complete hx]
  rfl

theorem size_complete (s : Solution c) : s.complete.size = s.nWires := rfl

/-! ## Known terms -/

/-- The term can be computed from the solution. -/
def Known (s : Solution c) (t : Term) : Prop :=
  t.isVirtual = true ∨ t.coeff = .zero ∨ (s.get? t.wire).isSome

/-- The term needs a wire that is unsolved. -/
structure Open (s : Solution c) (t : Term) : Prop where
  real : t.isVirtual = false
  coeff_ne : t.coeff ≠ .zero
  lt : t.wire.index < s.nWires
  unsolved : s.get? t.wire = none

theorem Known.of_extends {s u : Solution c} {t : Term} (hk : s.Known t) (h : s.Extends u) :
    u.Known t := by
  rcases hk with hv | hz | hs
  · exact .inl hv
  · exact .inr (.inl hz)
  · exact .inr (.inr (h.isSome hs))

theorem Open.not_known {s : Solution c} {t : Term} (h : s.Open t) : ¬s.Known t := by
  intro hk
  rcases hk with hv | hz | hs
  · rw [h.real] at hv
    cases hv
  · exact h.coeff_ne hz
  · rw [h.unsolved] at hs
    cases hs

theorem isKnown_true_iff {s : Solution c} {t : Term} : s.isKnown t = .ok true ↔ s.Known t := by
  unfold isKnown Known
  by_cases hv : t.isVirtual = true
  · simp [hv]
  · by_cases hz : t.coeff = .zero
    · simp [hz]
    · rw [if_neg (by simp [hv, hz]), isSolved_eq_ok_iff]
      constructor
      · intro h
        exact .inr (.inr h.2)
      · intro h
        -- a solved wire is a wire of the circuit
        have hsome := (h.resolve_left hv).resolve_left hz
        obtain ⟨x, hx⟩ := Option.isSome_iff_exists.1 hsome
        exact ⟨lt_of_get? hx, hsome⟩

theorem isKnown_false_iff {s : Solution c} {t : Term} : s.isKnown t = .ok false ↔ s.Open t := by
  unfold isKnown
  -- a term is open if none of the checks before the flag makes it known
  by_cases hv : t.isVirtual = true
  · have hnot : ¬s.Open t := fun h => by simp [h.real] at hv
    simp [hv, hnot]
  · by_cases hz : t.coeff = .zero
    · have hnot : ¬s.Open t := fun h => h.coeff_ne hz
      simp [hz, hnot]
    · rw [if_neg (by simp [hv, hz]), isSolved_eq_ok_iff]
      constructor
      · intro h
        exact ⟨by simpa using hv, hz, h.1, by simpa using h.2⟩
      · intro h
        exact ⟨h.lt, by rw [h.unsolved]; rfl⟩

/-- A term whose wire is in range is known or open. -/
theorem exists_isKnown {s : Solution c} {table : CoefficientTable c} {t : Term}
    (h : t.InBounds table s.nWires) : ∃ b, s.isKnown t = .ok b := by
  unfold isKnown
  by_cases hv : t.isVirtual || t.coeff == .zero
  · exact ⟨true, if_pos hv⟩
  · rw [if_neg hv]
    have hreal : t.isVirtual = false := by
      cases hb : t.isVirtual with
      | true => simp [hb] at hv
      | false => rfl
    exact ⟨_, isSolved_eq_ok_iff.2 ⟨h.2 hreal, rfl⟩⟩

/-- A term that can be computed has its value under every valuation that agrees. -/
theorem computeTerm_eq_ok_iff {s : Solution c} {table : CoefficientTable c} {v : Valuation c}
    (hv : v.Agrees s) {t : Term} {x : Scalar c} :
    s.computeTerm table t = .ok x ↔
      (t.coeff.index < table.size ∧ s.Known t) ∧ t.denote table v = x := by
  unfold computeTerm Known Term.denote
  by_cases hvirt : t.isVirtual = true
  · simp [hvirt, CoefficientTable.value_eq_ok_iff]
  · by_cases hzero : t.coeff = .zero
    · have hlt : CoeffId.zero.index < table.size := table.lt_size_of_reserved (by decide)
      simp [hvirt, hzero, hlt]
    · rw [if_neg hvirt, if_neg hzero, bind_eq_ok_iff]
      simp only [value_eq_ok_iff, hvirt, hzero, false_or]
      cases hget : s.get? t.wire with
      | none => simp [throw, throwThe, MonadExceptOf.throw]
      | some y =>
        have hlt := lt_of_get? hget
        have hy : v t.wire = y := hv _ _ hget
        simp only [hlt, true_and, exists_eq_left', Option.isSome_some]
        -- the reserved coefficients skip the table, which holds the same values
        by_cases hone : t.coeff = .one
        · have h1 : CoeffId.one.index < table.size := table.lt_size_of_reserved (by decide)
          simp [hone, pure_eq_ok_iff, hy, h1]
        · by_cases htwo : t.coeff = .two
          · have h2 : CoeffId.two.index < table.size := table.lt_size_of_reserved (by decide)
            have hne : CoeffId.two ≠ CoeffId.one := by decide
            simp [htwo, hne, pure_eq_ok_iff, hy, h2]
          · by_cases hneg : t.coeff = .minusOne
            · have h3 : CoeffId.minusOne.index < table.size :=
                table.lt_size_of_reserved (by decide)
              have hne₁ : CoeffId.minusOne ≠ CoeffId.one := by decide
              have hne₂ : CoeffId.minusOne ≠ CoeffId.two := by decide
              simp [hneg, hne₁, hne₂, pure_eq_ok_iff, hy, h3]
            · rw [if_neg hone, if_neg htwo, if_neg hneg, bind_eq_ok_iff]
              simp [pure_eq_ok_iff, CoefficientTable.value_eq_ok_iff, hy, and_assoc]

/-- A sum that can be computed has its value under every valuation that agrees. -/
theorem sumTerms_computeTerm_eq_ok_iff {s : Solution c} {table : CoefficientTable c}
    {v : Valuation c} (hv : v.Agrees s) {terms : List Term} {x : Scalar c} :
    sumTerms (s.computeTerm table) terms = .ok x ↔
      (∀ t ∈ terms, t.coeff.index < table.size ∧ s.Known t) ∧
        denoteSum table v terms = x :=
  sumTerms_eq_ok_iff (fun _ _ _ => computeTerm_eq_ok_iff hv) x

theorem denoteSum_of_sumTerms {s : Solution c} {table : CoefficientTable c} {terms : List Term}
    {x : Scalar c} (h : sumTerms (s.computeTerm table) terms = .ok x) {v : Valuation c}
    (hv : v.Agrees s) : denoteSum table v terms = x :=
  ((sumTerms_computeTerm_eq_ok_iff hv).1 h).2

theorem coeff_lt_of_sumTerms {s : Solution c} {table : CoefficientTable c} {terms : List Term}
    {x : Scalar c} (h : sumTerms (s.computeTerm table) terms = .ok x) {t : Term}
    (ht : t ∈ terms) : t.coeff.index < table.size :=
  (((sumTerms_computeTerm_eq_ok_iff s.agrees_complete).1 h).1 t ht).1

theorem exists_sumTerms {s : Solution c} {table : CoefficientTable c} {terms : List Term}
    (hbounds : ∀ t ∈ terms, t.coeff.index < table.size) (hknown : ∀ t ∈ terms, s.Known t) :
    ∃ x, sumTerms (s.computeTerm table) terms = .ok x :=
  ⟨_, (sumTerms_computeTerm_eq_ok_iff s.agrees_complete).2
    ⟨fun t ht => ⟨hbounds t ht, hknown t ht⟩, rfl⟩⟩

theorem computeKnown_eq_some_iff {s : Solution c} {table : CoefficientTable c} {v : Valuation c}
    (hv : v.Agrees s) {t : Term} {x : Scalar c} :
    s.computeKnown table t = .ok (some x) ↔
      (t.coeff.index < table.size ∧ s.Known t) ∧ t.denote table v = x := by
  unfold computeKnown
  rw [bind_eq_ok_iff]
  constructor
  · intro ⟨b, _, h⟩
    cases b with
    | true =>
      obtain ⟨y, hy, heq⟩ := bind_eq_ok_iff.1 h
      cases heq
      exact (computeTerm_eq_ok_iff hv).1 hy
    | false => cases h
  · intro ⟨⟨hlt, hk⟩, hx⟩
    refine ⟨true, isKnown_true_iff.2 hk, bind_eq_ok_iff.2 ⟨x, ?_, rfl⟩⟩
    exact (computeTerm_eq_ok_iff hv).2 ⟨⟨hlt, hk⟩, hx⟩

theorem computeKnown_eq_none_iff {s : Solution c} {table : CoefficientTable c} {t : Term} :
    s.computeKnown table t = .ok none ↔ s.Open t := by
  unfold computeKnown
  rw [bind_eq_ok_iff]
  constructor
  · intro ⟨b, hb, h⟩
    cases b with
    | true =>
      obtain ⟨y, _, heq⟩ := bind_eq_ok_iff.1 h
      cases heq
    | false => exact isKnown_false_iff.1 hb
  · intro h
    exact ⟨false, isKnown_false_iff.2 h, rfl⟩

end Solution

end CircuitWitness
