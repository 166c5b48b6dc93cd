import CircuitWitness.Circuit.Verify
import CircuitWitness.Proofs.Fallible
import CircuitWitness.Proofs.Field.Algebra
import Mathlib.Data.List.Perm.Basic

/-! # The value of a gate

    Given a value for every wire, a term, a combination and a gate have a value
    in the field, whatever the order in which they are evaluated.  The value of
    a gate is its residual: the gate holds if it is zero.

    `evalTerm`, `evalCombination` and `Circuit.residual` compute these values
    where every coefficient is in the table and every wire has a value, and stop
    with a fault anywhere else.
-/

namespace CircuitWitness

variable {c : Curve} {k : Kind}

/-- A value for every wire. -/
abbrev Valuation (c : Curve) : Type := WireId → Scalar c

/-! ## Constants -/

namespace CoefficientTable

/-- The constant at an index, and zero past the end of the table. -/
def coefficient (table : CoefficientTable c) (id : CoeffId) : Scalar c :=
  (table.get? id).getD 0

theorem value_eq_ok_iff {table : CoefficientTable c} {id : CoeffId} {x : Scalar c} :
    table.value id = .ok x ↔ id.index < table.size ∧ table.coefficient id = x := by
  unfold value coefficient get? size
  by_cases h : id.index < table.values.size
  · simp [h]
  · simp [h]

theorem reserved_getElem? (table : CoefficientTable c) {i : Nat} (h : i < 4) :
    table.values[i]? = (reservedConstants c)[i]? := by
  rw [← table.reserved, List.getElem?_take_of_lt h, Array.getElem?_toList]

@[simp] theorem coefficient_zero (table : CoefficientTable c) : table.coefficient .zero = 0 := by
  have h := table.reserved_getElem? (i := 0) (by decide)
  simp [coefficient, get?, CoeffId.zero, h, reservedConstants]

@[simp] theorem coefficient_one (table : CoefficientTable c) : table.coefficient .one = 1 := by
  have h := table.reserved_getElem? (i := 1) (by decide)
  simp [coefficient, get?, CoeffId.one, h, reservedConstants]

@[simp] theorem coefficient_two (table : CoefficientTable c) : table.coefficient .two = 2 := by
  have h := table.reserved_getElem? (i := 2) (by decide)
  simp [coefficient, get?, CoeffId.two, h, reservedConstants]

@[simp] theorem coefficient_minusOne (table : CoefficientTable c) :
    table.coefficient .minusOne = -1 := by
  have h := table.reserved_getElem? (i := 3) (by decide)
  simp [coefficient, get?, CoeffId.minusOne, h, reservedConstants]

theorem four_le_size (table : CoefficientTable c) : 4 ≤ table.size := by
  have h := table.four_le_length
  rw [Array.length_toList] at h
  exact h

theorem lt_size_of_reserved (table : CoefficientTable c) {id : CoeffId} (h : id.index < 4) :
    id.index < table.size :=
  Nat.lt_of_lt_of_le h table.four_le_size

/-- The table holds zero once, at its reserved index. -/
theorem coefficient_eq_zero_iff {table : CoefficientTable c} {id : CoeffId}
    (h : id.index < table.size) : table.coefficient id = 0 ↔ id = .zero := by
  constructor
  · intro hzero
    have hpos : 0 < table.values.size := Nat.lt_of_lt_of_le (by decide) table.four_le_size
    have hid : table.values.toList[id.index]? = some (table.coefficient id) := by
      simp [CoefficientTable.coefficient, get?, Array.getElem?_eq_getElem h]
    have h0 : table.values.toList[0]? = some (table.coefficient .zero) := by
      simp [CoefficientTable.coefficient, get?, CoeffId.zero, Array.getElem?_eq_getElem hpos]
    rw [hzero] at hid
    rw [coefficient_zero] at h0
    -- both places hold zero, and the table holds nothing twice
    have hlt : id.index < table.values.toList.length := by
      rw [Array.length_toList]
      exact h
    have hindex : id.index = 0 := (List.getElem?_inj hlt table.nodup).1 (hid.trans h0.symm)
    cases id
    cases hindex
    rfl
  · intro hid
    rw [hid]
    exact coefficient_zero table

end CoefficientTable

/-! ## Values of terms, combinations and gates -/

/-- The value of a term. -/
def Term.denote (table : CoefficientTable c) (v : Valuation c) (t : Term) : Scalar c :=
  if t.isVirtual then table.coefficient t.coeff else table.coefficient t.coeff * v t.wire

/-- The sum of the values of terms. -/
def denoteSum (table : CoefficientTable c) (v : Valuation c) (terms : List Term) : Scalar c :=
  (terms.map (Term.denote table v)).sum

namespace Gate

/-- The value of a gate; it holds if that is zero. -/
def denote (table : CoefficientTable c) (v : Valuation c) : Gate k → Scalar c
  | rankOne g =>
    denoteSum table v g.l.terms * denoteSum table v g.r.terms - denoteSum table v g.o.terms
  | sparse g =>
    g.l.denote table v + g.r.denote table v + g.o.denote table v
      + g.m₀.denote table v * g.m₁.denote table v + table.coefficient g.k

end Gate

@[simp] theorem denoteSum_nil (table : CoefficientTable c) (v : Valuation c) :
    denoteSum table v [] = 0 := rfl

@[simp] theorem denoteSum_cons (table : CoefficientTable c) (v : Valuation c) (t : Term)
    (rest : List Term) :
    denoteSum table v (t :: rest) = t.denote table v + denoteSum table v rest := by
  simp [denoteSum]

theorem denoteSum_eraseIdx (table : CoefficientTable c) (v : Valuation c) {terms : List Term}
    {i : Nat} {t : Term} (h : terms[i]? = some t) :
    denoteSum table v terms = t.denote table v + denoteSum table v (terms.eraseIdx i) := by
  obtain ⟨hi, rfl⟩ := List.getElem?_eq_some_iff.1 h
  rw [← denoteSum_cons]
  exact ((List.getElem_cons_eraseIdx_perm hi).symm.map _).sum_eq

/-! ## Sums of evaluations -/

section Sums

variable {eval : Term → Except Fault (Scalar c)} {ready : Term → Prop} {value : Term → Scalar c}

theorem foldlM_add_eq_ok_iff {terms : List Term}
    (heval : ∀ t ∈ terms, ∀ x, eval t = .ok x ↔ ready t ∧ value t = x) (a x : Scalar c) :
    terms.foldlM (fun sum t => return sum + (← eval t)) a = .ok x ↔
      (∀ t ∈ terms, ready t) ∧ a + (terms.map value).sum = x := by
  -- the fold adds to `a`, so the sum so far varies
  induction terms generalizing a with
  | nil => simp [pure_eq_ok_iff]
  | cons t rest ih =>
    have hrest := fun a => ih (fun u hu => heval u (List.mem_cons_of_mem _ hu)) a
    have ht := heval t List.mem_cons_self
    rw [List.foldlM_cons, bind_eq_ok_iff]
    simp only [bind_eq_ok_iff, pure_eq_ok_iff, hrest, List.map_cons, List.sum_cons,
      List.forall_mem_cons, ht]
    constructor
    · intro h
      obtain ⟨_, ⟨y, ⟨hready, rfl⟩, rfl⟩, hall, hx⟩ := h
      exact ⟨⟨hready, hall⟩, by rw [← hx]; ring⟩
    · intro h
      obtain ⟨⟨hready, hall⟩, hx⟩ := h
      exact ⟨a + value t, ⟨value t, ⟨hready, rfl⟩, rfl⟩, hall, by rw [← hx]; ring⟩

/-- A sum of terms has a value if every term has one. -/
theorem sumTerms_eq_ok_iff {terms : List Term}
    (heval : ∀ t ∈ terms, ∀ x, eval t = .ok x ↔ ready t ∧ value t = x) (x : Scalar c) :
    sumTerms eval terms = .ok x ↔ (∀ t ∈ terms, ready t) ∧ (terms.map value).sum = x := by
  rw [sumTerms, foldlM_add_eq_ok_iff heval, zero_add]

end Sums

/-! ## Evaluation under an assignment -/

/-- The values of an array by wire, and zero past its end. -/
def valuation (values : Array (Scalar c)) : Valuation c := fun w => (values[w.index]?).getD 0

/-- A term whose coefficient is in the table and whose wire is one of `n`. -/
def Term.InBounds (table : CoefficientTable c) (n : Nat) (t : Term) : Prop :=
  t.coeff.index < table.size ∧ (t.isVirtual = false → t.wire.index < n)

/-- A gate all of whose coefficients are in the table and whose wires are among `n`. -/
def Gate.InBounds (table : CoefficientTable c) (n : Nat) (g : Gate k) : Prop :=
  (∀ t ∈ g.terms, t.InBounds table n) ∧ ∀ id ∈ g.extraCoefficients, id.index < table.size

instance (table : CoefficientTable c) (n : Nat) (t : Term) : Decidable (t.InBounds table n) :=
  inferInstanceAs (Decidable (_ ∧ (_ → _)))

instance (table : CoefficientTable c) (n : Nat) (g : Gate k) : Decidable (g.InBounds table n) :=
  inferInstanceAs (Decidable ((∀ _ ∈ _, _) ∧ ∀ _ ∈ _, _))

theorem wireValue_eq_ok_iff {values : Array (Scalar c)} {w : WireId} {x : Scalar c} :
    wireValue values w = .ok x ↔ w.index < values.size ∧ valuation values w = x := by
  unfold wireValue valuation
  by_cases h : w.index < values.size
  · simp [h]
  · simp [h]

theorem evalTerm_eq_ok_iff {table : CoefficientTable c} {values : Array (Scalar c)} {t : Term}
    {x : Scalar c} :
    evalTerm table values t = .ok x ↔
      t.InBounds table values.size ∧ t.denote table (valuation values) = x := by
  unfold evalTerm Term.InBounds Term.denote
  -- a virtual term has no wire that would have to be in range
  by_cases hv : t.isVirtual
  · simp [hv, CoefficientTable.value_eq_ok_iff]
  · rw [if_neg hv, if_neg hv, bind_eq_ok_iff]
    simp only [bind_eq_ok_iff, pure_eq_ok_iff, CoefficientTable.value_eq_ok_iff,
      wireValue_eq_ok_iff]
    constructor
    · intro h
      obtain ⟨_, ⟨hk, rfl⟩, _, ⟨hw, rfl⟩, hx⟩ := h
      exact ⟨⟨hk, fun _ => hw⟩, hx⟩
    · intro h
      obtain ⟨⟨hk, hw⟩, hx⟩ := h
      exact ⟨_, ⟨hk, rfl⟩, _, ⟨hw (by simpa using hv), rfl⟩, hx⟩

theorem evalCombination_eq_ok_iff {table : CoefficientTable c} {values : Array (Scalar c)}
    {lc : LinearCombination} {x : Scalar c} :
    evalCombination table values lc = .ok x ↔
      (∀ t ∈ lc.terms, t.InBounds table values.size) ∧
        denoteSum table (valuation values) lc.terms = x :=
  sumTerms_eq_ok_iff (fun _ _ _ => evalTerm_eq_ok_iff) x

theorem RankOne.residual_eq_ok_iff {g : RankOne} {eval : Term → Except Fault (Scalar c)}
    {ready : Term → Prop} {value : Term → Scalar c}
    (heval : ∀ t ∈ g.terms, ∀ x, eval t = .ok x ↔ ready t ∧ value t = x) (x : Scalar c) :
    g.residual eval = .ok x ↔ (∀ t ∈ g.terms, ready t) ∧
      (g.l.terms.map value).sum * (g.r.terms.map value).sum - (g.o.terms.map value).sum = x := by
  -- the three operands are summed in the same way
  have hl := sumTerms_eq_ok_iff fun t (ht : t ∈ g.l.terms) =>
    heval t (by simp [RankOne.terms, ht])
  have hr := sumTerms_eq_ok_iff fun t (ht : t ∈ g.r.terms) =>
    heval t (by simp [RankOne.terms, ht])
  have ho := sumTerms_eq_ok_iff fun t (ht : t ∈ g.o.terms) =>
    heval t (by simp [RankOne.terms, ht])
  simp only [RankOne.residual, bind_eq_ok_iff, pure_eq_ok_iff, hl, hr, ho, RankOne.terms,
    List.forall_mem_append]
  constructor
  · intro h
    obtain ⟨_, ⟨hl, rfl⟩, _, ⟨hr, rfl⟩, _, ⟨ho, rfl⟩, hx⟩ := h
    exact ⟨⟨⟨hl, hr⟩, ho⟩, hx⟩
  · intro h
    obtain ⟨⟨⟨hl, hr⟩, ho⟩, hx⟩ := h
    exact ⟨_, ⟨hl, rfl⟩, _, ⟨hr, rfl⟩, _, ⟨ho, rfl⟩, hx⟩

theorem SparseGate.residual_eq_ok_iff {table : CoefficientTable c} {g : SparseGate}
    {eval : Term → Except Fault (Scalar c)} {ready : Term → Prop} {value : Term → Scalar c}
    (heval : ∀ t ∈ g.terms, ∀ x, eval t = .ok x ↔ ready t ∧ value t = x) (x : Scalar c) :
    g.residual table eval = .ok x ↔ (∀ t ∈ g.terms, ready t) ∧ g.k.index < table.size ∧
      value g.l + value g.r + value g.o + value g.m₀ * value g.m₁ + table.coefficient g.k = x := by
  have hl := heval g.l (by simp [SparseGate.terms])
  have hr := heval g.r (by simp [SparseGate.terms])
  have ho := heval g.o (by simp [SparseGate.terms])
  have hm₀ := heval g.m₀ (by simp [SparseGate.terms])
  have hm₁ := heval g.m₁ (by simp [SparseGate.terms])
  simp only [SparseGate.residual, bind_eq_ok_iff, pure_eq_ok_iff, hl, hr, ho, hm₀, hm₁,
    CoefficientTable.value_eq_ok_iff, SparseGate.terms, List.forall_mem_cons]
  constructor
  · intro h
    obtain ⟨_, ⟨hl, rfl⟩, _, ⟨hr, rfl⟩, _, ⟨ho, rfl⟩, _, ⟨hm₀, rfl⟩, _, ⟨hm₁, rfl⟩, _,
      ⟨hk, rfl⟩, hx⟩ := h
    exact ⟨⟨hl, hr, ho, hm₀, hm₁, by simp⟩, hk, hx⟩
  · intro h
    obtain ⟨⟨hl, hr, ho, hm₀, hm₁, -⟩, hk, hx⟩ := h
    exact ⟨_, ⟨hl, rfl⟩, _, ⟨hr, rfl⟩, _, ⟨ho, rfl⟩, _, ⟨hm₀, rfl⟩, _, ⟨hm₁, rfl⟩, _,
      ⟨hk, rfl⟩, hx⟩

/-- The residual of a gate is its value, where the gate has one. -/
theorem Gate.residual_eq_ok_iff {table : CoefficientTable c} {values : Array (Scalar c)}
    {g : Gate k} {x : Scalar c} :
    g.residual table (evalTerm table values) = .ok x ↔
      g.InBounds table values.size ∧ g.denote table (valuation values) = x := by
  cases g with
  | rankOne g =>
    have h : g.residual (evalTerm table values) = .ok x ↔ _ :=
      RankOne.residual_eq_ok_iff (fun _ _ _ => evalTerm_eq_ok_iff) x
    simpa [Gate.residual, Gate.InBounds, Gate.terms, Gate.extraCoefficients, Gate.denote,
      denoteSum] using h
  | sparse g =>
    have h : g.residual table (evalTerm table values) = .ok x ↔ _ :=
      SparseGate.residual_eq_ok_iff (fun _ _ _ => evalTerm_eq_ok_iff) x
    simpa [Gate.residual, Gate.InBounds, Gate.terms, Gate.extraCoefficients, Gate.denote,
      and_assoc] using h

theorem Circuit.residual_eq_ok_iff {s : Circuit c k} {values : Array (Scalar c)} {g : Gate k}
    {x : Scalar c} :
    s.residual values g = .ok x ↔
      g.InBounds s.table values.size ∧ g.denote s.table (valuation values) = x :=
  Gate.residual_eq_ok_iff

end CircuitWitness
