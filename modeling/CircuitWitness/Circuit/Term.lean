/-! # Terms

    A term is a coefficient times a wire.  Both are named by index: the wire in
    the layout of the circuit, the coefficient in its table.  Every term also
    says how its wire is visible; a virtual term stands for its coefficient
    alone and has no wire.

    The canonical order of terms puts the most visible first and, among equally
    visible ones, the lower wire first.
-/

namespace CircuitWitness

/-- A wire of the circuit, by its position in the layout. -/
structure WireId where
  index : Nat
  deriving DecidableEq, Repr, Hashable

namespace WireId

/-- The public wire that always carries `1`. -/
def one : WireId := ⟨0⟩

/-- The index that no wire has. -/
def invalid : WireId := ⟨4294967295⟩

end WireId

/-- A constant of the circuit, by its position in the coefficient table. -/
structure CoeffId where
  index : Nat
  deriving DecidableEq, Repr

namespace CoeffId

/-- Where every table holds `0`. -/
def zero : CoeffId := ⟨0⟩

/-- Where every table holds `1`. -/
def one : CoeffId := ⟨1⟩

/-- Where every table holds `2`. -/
def two : CoeffId := ⟨2⟩

/-- Where every table holds `-1`. -/
def minusOne : CoeffId := ⟨3⟩

/-- The coefficients `1` and `-1`, which texts leave out. -/
def isUnit (k : CoeffId) : Bool := k == one || k == minusOne

end CoeffId

/-- How a term's wire is visible, the least visible first. -/
inductive Visibility where
  /-- There is no wire. -/
  | virtual
  /-- The wire was introduced by the compiler. -/
  | internal
  /-- The wire is a private input. -/
  | secret
  /-- The wire is a public input, or the one wire. -/
  | pub
  deriving DecidableEq, Repr

namespace Visibility

/-- How visible a wire is; the most visible has the highest rank. -/
def rank : Visibility → Nat
  | virtual => 0
  | internal => 1
  | secret => 2
  | pub => 3

theorem rank_inj {a b : Visibility} : a.rank = b.rank ↔ a = b := by
  cases a <;> cases b <;> decide

/-- The name used in messages. -/
def name : Visibility → String
  | virtual => "Virtual"
  | internal => "Internal"
  | secret => "Secret"
  | pub => "Public"

end Visibility

/-- A coefficient times a wire. -/
structure Term where
  coeff : CoeffId
  /-- Without meaning when the term is virtual. -/
  wire : WireId
  visibility : Visibility
  deriving DecidableEq, Repr

namespace Term

/-- The term of a constant. -/
def constant (k : CoeffId) : Term := ⟨k, .one, .virtual⟩

/-- The mark that opens and closes a span of a log entry. -/
def delimiter : Term := ⟨.zero, .invalid, .virtual⟩

/-- The term has no wire. -/
def isVirtual (t : Term) : Bool := t.visibility == .virtual

/-- The term is the mark between the spans of a log entry. -/
def isDelimiter (t : Term) : Bool := t == delimiter

@[simp] theorem isVirtual_constant (k : CoeffId) : (constant k).isVirtual = true := rfl

@[simp] theorem isVirtual_delimiter : delimiter.isVirtual = true := rfl

/-! ## Canonical order -/

/-- Compares by visibility, the most visible first, then by wire.  The
    coefficient is not looked at. -/
def canonicalCompare (a b : Term) : Ordering :=
  (compare b.visibility.rank a.visibility.rank).then (compare a.wire.index b.wire.index)

/-- `a` comes strictly before `b`. -/
def less (a b : Term) : Bool := a.canonicalCompare b == .lt

/-- `a` may stand before `b`. -/
def notAfter (a b : Term) : Bool := (a.canonicalCompare b).isLE

theorem notAfter_iff {a b : Term} :
    a.notAfter b ↔ b.visibility.rank < a.visibility.rank ∨
      b.visibility = a.visibility ∧ a.wire.index ≤ b.wire.index := by
  rw [notAfter, canonicalCompare, Ordering.isLE_then_iff_or, Nat.compare_eq_lt,
    Nat.compare_eq_eq, Visibility.rank_inj, Nat.isLE_compare]

theorem notAfter_trans {a b d : Term} (hab : a.notAfter b) (hbd : b.notAfter d) :
    a.notAfter d := by
  rw [notAfter_iff, ← Visibility.rank_inj] at hab hbd ⊢
  omega

theorem notAfter_total (a b : Term) : a.notAfter b ∨ b.notAfter a := by
  rw [notAfter_iff, notAfter_iff, ← Visibility.rank_inj, ← Visibility.rank_inj]
  omega

/-- A term may stand before another unless the other comes strictly before it. -/
theorem notAfter_eq_not_less (a b : Term) : a.notAfter b = !b.less a := by
  have swapped : b.canonicalCompare a = (a.canonicalCompare b).swap := by
    simp [canonicalCompare, Ordering.swap_then, Nat.compare_swap]
  rw [notAfter, less, swapped]
  cases a.canonicalCompare b <;> rfl

end Term

end CircuitWitness
