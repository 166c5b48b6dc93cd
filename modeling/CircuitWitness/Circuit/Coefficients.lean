import CircuitWitness.Circuit.Term
import CircuitWitness.Fault
import CircuitWitness.Field.Scalar

/-! # Coefficient tables

    The constants of a circuit, each held once.  A new table holds `0`, `1`, `2`
    and `-1`, in this order; a constant keeps its index for good, and one that
    is new to the table is put at its end.
-/

namespace CircuitWitness

/-- The constants that every table starts with. -/
def reservedConstants (c : Curve) : List (Scalar c) := [0, 1, Scalar.double 1, -1]

theorem nodup_reservedConstants (c : Curve) : (reservedConstants c).Nodup := by
  cases c <;> decide

/-- The constants of a circuit by index. -/
structure CoefficientTable (c : Curve) where
  values : Array (Scalar c)
  reserved : values.toList.take 4 = reservedConstants c
  nodup : values.toList.Nodup

namespace CoefficientTable

variable {c : Curve}

/-- The table of the reserved constants. -/
def new : CoefficientTable c where
  values := (reservedConstants c).toArray
  reserved := rfl
  nodup := nodup_reservedConstants c

instance : Inhabited (CoefficientTable c) := ⟨new⟩

/-- The number of constants, the reserved ones included. -/
def size (t : CoefficientTable c) : Nat := t.values.size

/-- No table is empty. -/
def isEmpty (t : CoefficientTable c) : Bool := t.values.isEmpty

/-- The index of a constant of the table. -/
def lookup (t : CoefficientTable c) (v : Scalar c) : Option CoeffId :=
  (t.values.idxOf? v).map (⟨·⟩)

/-- The constant at an index. -/
def get? (t : CoefficientTable c) (k : CoeffId) : Option (Scalar c) := t.values[k.index]?

/-- The index lies in the table. -/
def isValid (t : CoefficientTable c) (k : CoeffId) : Bool := decide (k.index < t.values.size)

/-- The constant at an index that has to lie in the table. -/
def value (t : CoefficientTable c) (k : CoeffId) : Except Fault (Scalar c) :=
  match t.get? k with
  | some v => .ok v
  | none => .error .outOfBounds

theorem not_mem_of_lookup_eq_none {t : CoefficientTable c} {v : Scalar c}
    (h : t.lookup v = none) : v ∉ t.values.toList := by
  simpa [lookup, Array.idxOf?_eq_none_iff] using h

theorem four_le_length (t : CoefficientTable c) : 4 ≤ t.values.toList.length := by
  have := congrArg List.length t.reserved
  simp only [List.length_take, reservedConstants, List.length_cons, List.length_nil] at this
  omega

/-- Adds a constant that the table lacks. -/
def append (t : CoefficientTable c) (v : Scalar c) (h : v ∉ t.values.toList) :
    CoefficientTable c where
  values := t.values.push v
  reserved := by
    rw [Array.toList_push, List.take_append_of_le_length t.four_le_length, t.reserved]
  nodup := by
    rw [Array.toList_push]
    exact List.nodup_append.2
      ⟨t.nodup, by simp, fun a ha b hb => by
        rw [List.mem_singleton] at hb
        rintro rfl
        exact h (hb ▸ ha)⟩

/-- Interns a constant: its index, and the table that holds it. -/
def insert (t : CoefficientTable c) (v : Scalar c) : CoeffId × CoefficientTable c :=
  match h : t.lookup v with
  | some k => (k, t)
  | none => (⟨t.size⟩, t.append v (not_mem_of_lookup_eq_none h))

/-- Interns constants one after another. -/
def insertAll (t : CoefficientTable c) (vs : List (Scalar c)) : CoefficientTable c :=
  vs.foldl (fun t v => (t.insert v).2) t

end CoefficientTable

end CircuitWitness
