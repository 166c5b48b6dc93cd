import CircuitWitness.Circuit.LinearCombination
import Mathlib.Data.List.Nodup

/-! # The canonical order of terms

    Terms are ordered by what they stand on, their visibility and their wire
    (`Term.place`); the coefficient has no say.  So two different terms may both stand
    before the other, and the order of a combination that has such terms is settled by
    where they stood before it was sorted.

    A combination is checked by its neighbours only.  The order is transitive, so that is
    enough for any two of its terms.  Where no two terms stand on one place, the sorted
    form depends on nothing but the terms, and comparing sorted forms by position
    compares combinations as multisets.
-/

namespace CircuitWitness

/-! ## Places -/

namespace Term

variable {a b : Term}

/-- What the canonical order looks at. -/
def place (t : Term) : Visibility × WireId := (t.visibility, t.wire)

/-- `a` is more visible than `b`, or as visible and on no higher wire. -/
def Leads (a b : Term) : Prop :=
  b.visibility.rank < a.visibility.rank ∨
    b.visibility = a.visibility ∧ a.wire.index ≤ b.wire.index

theorem notAfter_iff_leads : a.notAfter b ↔ a.Leads b := notAfter_iff

/-- The comparison puts `a` after `b` unless `a` leads. -/
theorem canonicalCompare_ne_gt_iff : a.canonicalCompare b ≠ .gt ↔ a.Leads b := by
  rw [← notAfter_iff_leads, notAfter, Ordering.isLE_iff_ne_gt]

theorem leads_of_place_eq (h : a.place = b.place) : a.Leads b := by
  obtain ⟨hvisibility, hwire⟩ := Prod.mk.inj h
  exact .inr ⟨hvisibility.symm, Nat.le_of_eq (congrArg WireId.index hwire)⟩

/-- Terms that may stand either way stand on one place. -/
theorem place_eq_of_leads (hab : a.Leads b) (hba : b.Leads a) : a.place = b.place := by
  unfold Leads at hab hba
  -- the ranks bound each other, which leaves no room for a strict comparison
  have hvisibility : a.visibility = b.visibility := by
    rw [← Visibility.rank_inj] at hab hba ⊢
    omega
  have hwire : a.wire.index = b.wire.index := by
    rw [hvisibility] at hab hba
    omega
  exact Prod.ext hvisibility (congrArg WireId.mk hwire)

end Term

namespace LinearCombination

variable {lc a b : LinearCombination}

/-! ## The check of neighbours -/

/-- Every earlier term leads every later one. -/
def Ordered (lc : LinearCombination) : Prop := lc.terms.Pairwise Term.Leads

theorem ordered_iff_notAfter : lc.Ordered ↔ lc.terms.Pairwise (Term.notAfter · ·) :=
  List.Pairwise.iff fun _ _ => Term.notAfter_iff_leads.symm

theorem inOrder_iff {terms : List Term} :
    inOrder terms = true ↔ terms.IsChain (Term.notAfter · ·) := by
  induction terms with
  | nil => simp [inOrder]
  | cons t rest ih =>
    cases rest with
    | nil => simp [inOrder]
    | cons u rest =>
      rw [inOrder, Bool.and_eq_true, ih, List.isChain_cons_cons, Term.notAfter_eq_not_less]

instance : Trans (fun a b : Term => (a.notAfter b : Prop)) (fun a b => a.notAfter b)
    (fun a b => a.notAfter b) := ⟨Term.notAfter_trans⟩

/-- Neighbours in order put all terms in order. -/
theorem isSorted_iff_ordered : lc.isSorted = true ↔ lc.Ordered := by
  rw [isSorted, inOrder_iff, ordered_iff_notAfter, List.isChain_iff_pairwise]

/-! ## Sorting -/

theorem ordered_sort (lc : LinearCombination) : lc.sort.Ordered :=
  ordered_iff_notAfter.2 lc.pairwise_terms_sort

/-- Sorting leaves a combination as it is if it was in order, and only then. -/
theorem sort_eq_self_iff : lc.sort = lc ↔ lc.Ordered := by
  constructor
  · intro hsort
    rw [← hsort]
    exact lc.ordered_sort
  · intro hordered
    exact congrArg mk (Order.sort_eq_self (ordered_iff_notAfter.1 hordered))

/-- The terms of the combination on a place, in their order. -/
def termsAt (lc : LinearCombination) (place : Visibility × WireId) : List Term :=
  lc.terms.filter (·.place = place)

theorem termsAt_sort (lc : LinearCombination) (place : Visibility × WireId) :
    lc.sort.termsAt place = lc.termsAt place := by
  apply Order.filter_sort
  intro t u ht hu
  rw [decide_eq_true_eq] at ht hu
  exact Term.notAfter_iff_leads.2 (Term.leads_of_place_eq (ht.trans hu.symm))

/-! ## Sorted forms -/

/-- No two terms stand on one place. -/
def Unrepeated (lc : LinearCombination) : Prop := (lc.terms.map Term.place).Nodup

instance (lc : LinearCombination) : Decidable lc.Unrepeated :=
  inferInstanceAs (Decidable (List.Nodup _))

theorem equal_iff : a.equal b = true ↔ a = b := by
  cases a
  cases b
  simp [equal]

/-- The sorted form depends on the terms alone if no two of them stand on one place. -/
theorem sort_eq_sort_iff (h : a.Unrepeated) : a.sort = b.sort ↔ a.terms.Perm b.terms := by
  constructor
  · intro hsort
    have hperm := b.perm_sort
    rw [← hsort] at hperm
    exact a.perm_sort.symm.trans hperm
  · intro hperm
    apply congrArg mk
    refine @Order.sort_eq_of_perm Term Term.notAfter (fun _ _ _ => Term.notAfter_trans)
      Term.notAfter_total _ _ ?_ hperm
    -- of two terms that may stand either way there is only one
    intro t ht u hu htu hut
    have hplace := Term.place_eq_of_leads (Term.notAfter_iff_leads.1 htu)
      (Term.notAfter_iff_leads.1 hut)
    exact List.inj_on_of_nodup_map h ht hu hplace

/-- What sorting makes of a combination: its terms in order, those of one place as they were. -/
structure SortsTo (lc sorted : LinearCombination) : Prop where
  perm : sorted.terms.Perm lc.terms
  ordered : sorted.Ordered
  stable : ∀ place, sorted.termsAt place = lc.termsAt place

theorem sortsTo_sort (lc : LinearCombination) : lc.SortsTo lc.sort where
  perm := lc.perm_sort
  ordered := lc.ordered_sort
  stable := lc.termsAt_sort

/-- The comparison goes by visibility and wire, and sorting by the comparison is stable.  The
    check of neighbours tells whether all terms are in order, which is whether sorting changes
    nothing.  Sorted forms without repeated places are equal when the combinations are
    permutations of each other. -/
theorem canonical_sort (a : LinearCombination) :
    (∀ t u : Term, t.canonicalCompare u ≠ .gt ↔ t.Leads u) ∧ a.SortsTo a.sort ∧
      (a.isSorted = true ↔ a.Ordered) ∧ (a.isSorted = true ↔ a.sort = a) ∧
      ∀ b : LinearCombination, a.Unrepeated → b.Unrepeated →
        (a.sort.equal b.sort = true ↔ a.terms.Perm b.terms) := by
  refine ⟨fun t u => Term.canonicalCompare_ne_gt_iff, a.sortsTo_sort, isSorted_iff_ordered, ?_, ?_⟩
  · rw [isSorted_iff_ordered, sort_eq_self_iff]
  · -- a permutation of the one has the places of the one, so the other need not be looked at
    intro b ha _
    rw [equal_iff, sort_eq_sort_iff ha]

/-- A constant, two internal wires and a secret one. -/
def mixed : LinearCombination :=
  ⟨[.constant .two, ⟨.one, ⟨9⟩, .internal⟩, ⟨.two, ⟨4⟩, .internal⟩, ⟨.zero, ⟨7⟩, .secret⟩]⟩

/-- The same terms, from the third on. -/
def mixedRotated : LinearCombination := ⟨mixed.terms.rotate 2⟩

theorem canonical_sort_sample :
    mixed.Unrepeated ∧ mixedRotated.Unrepeated ∧ mixed.terms.Perm mixedRotated.terms ∧
      mixed.sort.equal mixedRotated.sort = true := by
  have hmixed : mixed.Unrepeated := by decide
  have hrotated : mixedRotated.Unrepeated := by decide
  have hequal : mixed.sort.equal mixedRotated.sort = true := by decide
  obtain ⟨-, -, -, -, hiff⟩ := canonical_sort mixed
  exact ⟨hmixed, hrotated, (hiff mixedRotated hmixed hrotated).1 hequal, hequal⟩

/-- Two terms on one place stay in the order in which they were listed. -/
example :
    let a : LinearCombination := ⟨[⟨.one, ⟨4⟩, .internal⟩, ⟨.two, ⟨4⟩, .internal⟩]⟩
    let b : LinearCombination := ⟨[⟨.two, ⟨4⟩, .internal⟩, ⟨.one, ⟨4⟩, .internal⟩]⟩
    a.terms.Perm b.terms ∧ a.sort.equal b.sort = false := by
  decide

end LinearCombination

end CircuitWitness
