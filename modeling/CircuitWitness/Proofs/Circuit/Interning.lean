import CircuitWitness.Proofs.Circuit.WellFormed

/-! # Interned constants

    A table holds a constant at one index, which looking the constant up gives.
    Constants stay in a table when others are interned.  The term of an interned
    constant on a wire of the layout fits the circuit and has the value that its
    name promises (`Circuit.IsTerm`).
-/

namespace CircuitWitness

variable {c : Curve} {k : Kind}

namespace CoefficientTable

variable {table : CoefficientTable c} {u v : Scalar c} {id : CoeffId}

theorem get?_eq_some_iff :
    table.get? id = some v ↔ id.index < table.size ∧ table.coefficient id = v := by
  unfold coefficient get? size
  by_cases h : id.index < table.values.size
  · simp [h]
  · simp [h]

theorem exists_lookup_iff : (∃ id, table.lookup v = some id) ↔ v ∈ table.values := by
  unfold lookup
  simp [← Option.isSome_iff_exists, Array.isSome_idxOf?]

theorem get?_of_lookup (h : table.lookup v = some id) : table.get? id = some v := by
  unfold lookup at h
  rw [Array.idxOf?_eq_map_finIdxOf?_val, Option.map_map, Option.map_eq_some_iff] at h
  obtain ⟨i, hi, rfl⟩ := h
  obtain ⟨hv, -⟩ := Array.finIdxOf?_eq_some_iff.1 hi
  show table.values[i.val]? = some v
  rw [Array.getElem?_eq_getElem i.isLt]
  exact congrArg some hv

/-- Looking up and reading are inverse to each other. -/
theorem lookup_eq_some_iff : table.lookup v = some id ↔ table.get? id = some v := by
  constructor
  · exact get?_of_lookup
  · intro hget
    obtain ⟨id', hlookup⟩ := exists_lookup_iff.2 (Array.mem_of_getElem? hget)
    have hget' := get?_of_lookup hlookup
    -- both indices hold the constant, and the table holds nothing twice
    unfold get? at hget hget'
    rw [← Array.getElem?_toList] at hget hget'
    obtain ⟨hlt, -⟩ := List.getElem?_eq_some_iff.1 hget
    have hindex := (List.getElem?_inj hlt table.nodup).1 (hget.trans hget'.symm)
    cases id
    cases id'
    cases hindex
    exact hlookup

end CoefficientTable

theorem Layout.visibility?_ne_virtual (l : Layout) (w : WireId) :
    l.visibility? w ≠ some .virtual := by
  unfold visibility?
  split
  · nofun
  · split
    · nofun
    · split
      · nofun
      · nofun

namespace Circuit

/-- The index of a constant.  The constant has to be interned. -/
def constant (s : Circuit c k) (v : Scalar c) : Except Fault CoeffId :=
  match s.table.lookup v with
  | some id => .ok id
  | none => .error (.unknownConstant v.decimal)

/-- The term stands for a constant on a wire. -/
structure IsTerm (s : Circuit c k) (v : Scalar c) (w : WireId) (t : Term) : Prop where
  fits : s.Fits t
  real : t.isVirtual = false
  wire_eq : t.wire = w
  coefficient_eq : s.table.coefficient t.coeff = v

variable {s : Circuit c k} {v : Scalar c} {w : WireId} {t : Term} {id : CoeffId}

namespace IsTerm

theorem denote_eq (h : s.IsTerm v w t) (u : Valuation c) : t.denote s.table u = v * u w := by
  rw [Term.denote, if_neg (by simp [h.real]), h.coefficient_eq, h.wire_eq]

theorem coeff_eq_zero_iff (h : s.IsTerm v w t) : t.coeff = .zero ↔ v = 0 := by
  rw [← CoefficientTable.coefficient_eq_zero_iff h.fits.1, h.coefficient_eq]

end IsTerm

end Circuit

end CircuitWitness
