import CircuitWitness.Circuit.Validate
import CircuitWitness.Proofs.Circuit.Denotation

/-! # Well-formed circuits

    What a circuit has to be like for `Circuit.validate` to accept it, said
    without the order of its checks.  The main statement is
    `validate_eq_ok_iff`.
-/

namespace CircuitWitness.Circuit

variable {c : Curve} {k : Kind}

/-- The term has a constant of the table and, unless it is virtual, a wire that is
    tagged as the layout says. -/
def Fits (s : Circuit c k) (t : Term) : Prop :=
  t.coeff.index < s.table.size ∧
    (t.isVirtual = false → s.layout.visibility? t.wire = some t.visibility)

/-- The gate's terms fit and its other constants are in the table. -/
def GateFits (s : Circuit c k) (g : Gate k) : Prop :=
  (∀ t ∈ g.terms, s.Fits t) ∧ ∀ id ∈ g.extraCoefficients, id.index < s.table.size

/-- The terms of the inputs fit, and the outputs are internal wires. -/
def CallFits (s : Circuit c k) (call : HintCall) : Prop :=
  (∀ lc ∈ call.inputs, ∀ t ∈ lc.terms, s.Fits t) ∧
    ∀ w ∈ call.wires, s.layout.visibility? w = some .internal

/-- The terms of an entry fit; delimiters are no terms. -/
def EntryFits (s : Circuit c k) (entry : LogEntry) : Prop :=
  ∀ t ∈ entry.terms, t.isDelimiter = false → s.Fits t

/-- Everything that the circuit refers to exists. -/
structure WellFormed (s : Circuit c k) : Prop where
  oneWire : 0 < s.layout.nPublic
  gates : ∀ g ∈ s.gates.toList, s.GateFits g
  calls : ∀ call ∈ s.hints.calls, s.CallFits call
  logs : ∀ entry ∈ s.logs.toList, s.EntryFits entry
  debugInfo : ∀ d ∈ s.debugInfo, d.1 < s.nConstraints ∧ s.EntryFits d.2

/-! ## Each check on its own -/

theorem validateCoeff_eq_ok_iff {s : Circuit c k} {location : Location} {index : Nat}
    {id : CoeffId} : s.validateCoeff location index id = .ok () ↔ id.index < s.table.size := by
  unfold validateCoeff CoefficientTable.isValid CoefficientTable.size
  by_cases h : id.index < s.table.values.size
  · simp [h]
  · simp [h]

theorem validateTerm_eq_ok_iff {s : Circuit c k} {location : Location} {index : Nat} {t : Term} :
    s.validateTerm location index t = .ok () ↔ s.Fits t := by
  unfold validateTerm Fits
  rw [check_bind_eq_ok_iff, validateCoeff_eq_ok_iff]
  by_cases hv : t.isVirtual
  · simp [hv, pure_eq_ok_iff]
  · cases hvis : s.layout.visibility? t.wire with
    | none => simp [hv, throw, throwThe, MonadExceptOf.throw]
    | some expected =>
      by_cases hsame : expected = t.visibility
      · simp [hv, hsame, pure_eq_ok_iff]
      · simp [hv, hsame, throw, throwThe, MonadExceptOf.throw]

theorem validateGate_eq_ok_iff {s : Circuit c k} {index : Nat} {g : Gate k} :
    s.validateGate index g = .ok () ↔ s.GateFits g := by
  rw [validateGate, check_bind_eq_ok_iff]
  simp only [forM_eq_ok_iff, validateTerm_eq_ok_iff, validateCoeff_eq_ok_iff]
  rfl

theorem validateOutput_eq_ok_iff {s : Circuit c k} {index : Nat} {w : WireId} :
    s.validateOutput index w = .ok () ↔ s.layout.visibility? w = some .internal := by
  unfold validateOutput
  cases s.layout.visibility? w with
  | none => simp
  | some v => cases v <;> simp

theorem validateCall_eq_ok_iff {s : Circuit c k} {index : Nat} {call : HintCall} :
    s.validateCall index call = .ok () ↔ s.CallFits call := by
  rw [validateCall, check_bind_eq_ok_iff]
  simp only [forM_eq_ok_iff, validateTerm_eq_ok_iff, validateOutput_eq_ok_iff]
  constructor
  · intro h
    obtain ⟨hin, hout⟩ := h
    refine ⟨?_, hout⟩
    intro lc hlc t ht
    exact hin t (List.mem_flatMap.2 ⟨lc, hlc, ht⟩)
  · intro h
    obtain ⟨hin, hout⟩ := h
    refine ⟨?_, hout⟩
    intro t ht
    obtain ⟨lc, hlc, ht⟩ := List.mem_flatMap.1 ht
    exact hin lc hlc t ht

theorem validateEntry_eq_ok_iff {s : Circuit c k} {location : Location} {index : Nat}
    {entry : LogEntry} : s.validateEntry location index entry = .ok () ↔ s.EntryFits entry := by
  rw [validateEntry, forM_eq_ok_iff]
  simp only [validateTerm_eq_ok_iff, List.mem_filter]
  constructor
  · intro h t ht hdelim
    exact h t ⟨ht, by simp [hdelim]⟩
  · intro h t ht
    obtain ⟨hmem, hdelim⟩ := ht
    exact h t hmem (by simpa using hdelim)

theorem validateDebugInfo_eq_ok_iff {s : Circuit c k} {index : Nat} {entry : LogEntry} :
    s.validateDebugInfo index entry = .ok () ↔ index < s.nConstraints ∧ s.EntryFits entry := by
  unfold validateDebugInfo
  by_cases h : s.nConstraints ≤ index
  · have hlt : ¬index < s.nConstraints := by omega
    simp [h, hlt, bind, Except.bind, throw, throwThe, MonadExceptOf.throw]
  · have hlt : index < s.nConstraints := by omega
    rw [if_neg h]
    simp [hlt, validateEntry_eq_ok_iff]

theorem forM_zipIdx_eq_ok_iff {α ε : Type} {f : α × Nat → Except ε Unit} {p : α → Prop}
    (h : ∀ a i, f (a, i) = .ok () ↔ p a) {l : List α} :
    l.zipIdx.forM f = .ok () ↔ ∀ a ∈ l, p a := by
  rw [forM_eq_ok_iff]
  constructor
  · intro hall a ha
    obtain ⟨i, hi, rfl⟩ := List.mem_iff_getElem.1 ha
    exact (h l[i] i).1 (hall (l[i], i) (List.mem_zipIdx_iff_getElem?.2 (by simp [hi])))
  · intro hall x hmem
    obtain ⟨a, i⟩ := x
    have ha : l[i]? = some a := List.mem_zipIdx_iff_getElem?.1 hmem
    exact (h a i).2 (hall a (List.mem_of_getElem? ha))

/-- The circuits that pass validation are the well-formed ones. -/
theorem validate_eq_ok_iff {s : Circuit c k} : s.validate = .ok () ↔ s.WellFormed := by
  unfold validate
  by_cases hone : s.layout.nPublic = 0
  · have hnot : ¬s.WellFormed := fun h => Nat.lt_irrefl 0 (hone ▸ h.oneWire)
    simp [hone, hnot, bind, Except.bind, throw, throwThe, MonadExceptOf.throw]
  · rw [if_neg hone]
    -- the positions that the checks carry along are only for their errors
    have hgates := forM_zipIdx_eq_ok_iff (l := s.gates.toList)
      (f := fun x => s.validateGate x.2 x.1) fun _ _ => validateGate_eq_ok_iff
    have hcalls := forM_zipIdx_eq_ok_iff (l := s.hints.calls)
      (f := fun x => s.validateCall x.2 x.1) fun _ _ => validateCall_eq_ok_iff
    have hlogs := forM_zipIdx_eq_ok_iff (l := s.logs.toList)
      (f := fun x => s.validateEntry .log x.2 x.1) fun _ _ => validateEntry_eq_ok_iff
    simp only [check_bind_eq_ok_iff, hgates, hcalls, hlogs, forM_eq_ok_iff,
      validateDebugInfo_eq_ok_iff]
    constructor
    · intro h
      obtain ⟨hgates, hcalls, hlogs, hdebug⟩ := h
      exact ⟨Nat.pos_of_ne_zero hone, hgates, hcalls, hlogs, hdebug⟩
    · intro h
      exact ⟨h.gates, h.calls, h.logs, h.debugInfo⟩

/-! ## What fits is in bounds -/

theorem visibility?_lt {l : Layout} {w : WireId} {v : Visibility} (h : l.visibility? w = some v) :
    w.index < l.nWires := by
  by_contra hge
  have hnone := Layout.visibility?_eq_none_iff.2 (Nat.le_of_not_lt hge)
  rw [h] at hnone
  cases hnone

theorem Fits.inBounds {s : Circuit c k} {t : Term} (h : s.Fits t) :
    t.InBounds s.table s.nWires :=
  ⟨h.1, fun hv => visibility?_lt (h.2 hv)⟩

theorem GateFits.inBounds {s : Circuit c k} {g : Gate k} (h : s.GateFits g) :
    g.InBounds s.table s.nWires :=
  ⟨fun t ht => (h.1 t ht).inBounds, h.2⟩

end CircuitWitness.Circuit
