/-! # Stable sorting

    Sorts a list by a relation `le` that says which elements may stand before
    which.  Elements are put in one by one from the end of the list, each before
    the first that it may stand before, so elements that may stand either way
    keep their order.

    The main statements: the result is a permutation (`sort_perm`) in order
    (`pairwise_sort`), a list in order stays as it is (`sort_eq_self`), elements
    that may all stand either way stay in their order (`filter_sort`), and if none
    may then the order of the list does not matter (`sort_eq_of_perm`).
-/

namespace CircuitWitness.Order

variable {α : Type} {le : α → α → Bool}

/-- Puts an element before the first that it may stand before. -/
def place (le : α → α → Bool) (a : α) : List α → List α
  | [] => [a]
  | b :: rest => if le a b then a :: b :: rest else b :: place le a rest

/-- The elements in order. -/
def sort (le : α → α → Bool) : List α → List α
  | [] => []
  | a :: rest => place le a (sort le rest)

/-! ## Permutation -/

theorem place_perm (a : α) (l : List α) : (place le a l).Perm (a :: l) := by
  induction l with
  | nil => exact .refl _
  | cons b rest ih =>
    rw [place]
    split
    · exact .refl _
    · exact (ih.cons b).trans (.swap a b rest)

theorem sort_perm (l : List α) : (sort le l).Perm l := by
  induction l with
  | nil => exact .refl _
  | cons a rest ih => exact (place_perm a _).trans (ih.cons a)

@[simp] theorem mem_sort {a : α} {l : List α} : a ∈ sort le l ↔ a ∈ l := (sort_perm l).mem_iff

@[simp] theorem length_sort (l : List α) : (sort le l).length = l.length := (sort_perm l).length_eq

/-! ## Order -/

theorem pairwise_place (trans : ∀ a b c, le a b → le b c → le a c)
    (total : ∀ a b, le a b ∨ le b a) {a : α} {l : List α} (h : l.Pairwise (le · ·)) :
    (place le a l).Pairwise (le · ·) := by
  induction l with
  | nil => simp [place]
  | cons b rest ih =>
    obtain ⟨first, others⟩ := List.pairwise_cons.1 h
    rw [place]
    -- the new element goes before the first one that it is not after
    split
    · rename_i before
      refine List.pairwise_cons.2 ⟨fun x hx => ?_, h⟩
      rcases List.mem_cons.1 hx with rfl | hx
      · exact before
      · exact trans _ _ _ before (first x hx)
    · rename_i before
      refine List.pairwise_cons.2 ⟨fun x hx => ?_, ih others⟩
      rcases List.mem_cons.1 ((place_perm a rest).mem_iff.1 hx) with rfl | hx
      · exact (total x b).resolve_left before
      · exact first x hx

theorem pairwise_sort (trans : ∀ a b c, le a b → le b c → le a c)
    (total : ∀ a b, le a b ∨ le b a) (l : List α) : (sort le l).Pairwise (le · ·) := by
  induction l with
  | nil => exact .nil
  | cons a rest ih => exact pairwise_place trans total ih

theorem sort_eq_self {l : List α} (h : l.Pairwise (le · ·)) : sort le l = l := by
  induction l with
  | nil => rfl
  | cons a rest ih =>
    obtain ⟨first, others⟩ := List.pairwise_cons.1 h
    rw [sort, ih others]
    cases rest with
    | nil => rfl
    | cons b rest => rw [place, if_pos (first b List.mem_cons_self)]

/-- Permutations of one list are sorted alike, if no two elements may stand either way. -/
theorem sort_eq_of_perm (trans : ∀ a b c, le a b → le b c → le a c)
    (total : ∀ a b, le a b ∨ le b a) {l l' : List α}
    (antisymm : ∀ a ∈ l, ∀ b ∈ l, le a b → le b a → a = b) (h : l.Perm l') :
    sort le l = sort le l' := by
  have hperm : (sort le l).Perm (sort le l') :=
    (sort_perm l).trans (h.trans (sort_perm l').symm)
  refine hperm.eq_of_pairwise ?_ (pairwise_sort trans total l) (pairwise_sort trans total l')
  intro a b ha hb
  exact antisymm a (mem_sort.1 ha) b (h.mem_iff.2 (mem_sort.1 hb))

/-! ## Stability -/

theorem filter_place_of_neg {p : α → Bool} {a : α} (h : ¬p a) (l : List α) :
    (place le a l).filter p = l.filter p := by
  induction l with
  | nil => simp [place, h]
  | cons b rest ih =>
    rw [place]
    split
    · rw [List.filter_cons_of_neg h]
    · rw [List.filter_cons, List.filter_cons, ih]

theorem filter_place_of_pos {p : α → Bool} {a : α} (h : p a) {l : List α}
    (either : ∀ b ∈ l, p b → le a b) : (place le a l).filter p = a :: l.filter p := by
  induction l with
  | nil => simp [place, h]
  | cons b rest ih =>
    rw [place]
    split
    · rw [List.filter_cons_of_pos h]
    · rename_i before
      have neg : ¬p b := fun pb => before (either b List.mem_cons_self pb)
      rw [List.filter_cons_of_neg neg, List.filter_cons_of_neg neg,
        ih fun x hx => either x (List.mem_cons_of_mem _ hx)]

theorem filter_sort {p : α → Bool} (either : ∀ a b, p a → p b → le a b) (l : List α) :
    (sort le l).filter p = l.filter p := by
  induction l with
  | nil => rfl
  | cons a rest ih =>
    rw [sort]
    by_cases h : p a
    · rw [filter_place_of_pos h fun b _ pb => either a b h pb, ih, List.filter_cons_of_pos h]
    · rw [filter_place_of_neg h, ih, List.filter_cons_of_neg h]

end CircuitWitness.Order
