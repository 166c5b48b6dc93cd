import CircuitWitness.Circuit.Term
import CircuitWitness.Fault
import CircuitWitness.Order.Stable

/-! # Linear combinations

    An ordered sum of terms.  Nothing here sorts on its own, so that equality is
    by position.  A combination without terms is unset: it stands for a variable
    that was declared and never assigned, and it is no value.
-/

namespace CircuitWitness

/-- An ordered sum of terms. -/
structure LinearCombination where
  terms : List Term
  deriving DecidableEq, Repr

namespace LinearCombination

instance : Inhabited LinearCombination := ⟨⟨[]⟩⟩

/-- The combination without terms. -/
def unset : LinearCombination := ⟨[]⟩

/-- Adds a term at the end. -/
def push (lc : LinearCombination) (t : Term) : LinearCombination := ⟨lc.terms ++ [t]⟩

/-- Drops the last term, if there is one. -/
def pop (lc : LinearCombination) : LinearCombination := ⟨lc.terms.dropLast⟩

/-- Puts a term at a position that has one. -/
def replace (lc : LinearCombination) (i : Nat) (t : Term) : Except Fault LinearCombination :=
  if i < lc.terms.length then .ok ⟨lc.terms.set i t⟩ else .error .outOfBounds

/-- Two sorted combinations have the same terms. -/
def equal (a b : LinearCombination) : Bool := a.terms == b.terms

/-- The combination is one coefficient on the public one wire. -/
def isConstant (lc : LinearCombination) : Bool :=
  match lc.terms with
  | [t] => t.wire == .one && t.visibility == .pub
  | _ => false

/-- Refuses an unset combination. -/
def assertSet (lc : LinearCombination) : Except Fault Unit :=
  if lc.terms.isEmpty then .error .unsetCombination else .ok ()

@[simp] theorem assertSet_eq_ok_iff {lc : LinearCombination} :
    lc.assertSet = .ok () ↔ lc.terms ≠ [] := by
  cases h : lc.terms <;> simp [assertSet, h]

theorem assertSet_eq_error_iff {lc : LinearCombination} {f : Fault} :
    lc.assertSet = .error f ↔ lc.terms = [] ∧ f = .unsetCombination := by
  cases h : lc.terms <;> simp [assertSet, h, eq_comm]

/-! ## Canonical order -/

/-- The terms in canonical order; terms that compare equal stay in their order. -/
def sort (lc : LinearCombination) : LinearCombination := ⟨Order.sort Term.notAfter lc.terms⟩

/-- No term comes strictly before the one that it follows. -/
def inOrder : List Term → Bool
  | a :: b :: rest => !b.less a && inOrder (b :: rest)
  | _ => true

/-- Neighbours are in canonical order. -/
def isSorted (lc : LinearCombination) : Bool := inOrder lc.terms

theorem perm_sort (lc : LinearCombination) : lc.sort.terms.Perm lc.terms :=
  Order.sort_perm lc.terms

/-- Sorting puts every earlier term in order with every later one. -/
theorem pairwise_terms_sort (lc : LinearCombination) :
    lc.sort.terms.Pairwise (Term.notAfter · ·) :=
  @Order.pairwise_sort Term Term.notAfter (fun _ _ _ => Term.notAfter_trans)
    Term.notAfter_total lc.terms

end LinearCombination

end CircuitWitness
