/-! # Association lists

    A finite map as the list of its entries, oldest first, each key at most once.
    `List.lookup` is the view: putting an entry changes what is found at its key
    and nowhere else.
-/

namespace CircuitWitness.Assoc

variable {κ α : Type} [DecidableEq κ]

/-- Removes the entry of a key. -/
def erase (l : List (κ × α)) (k : κ) : List (κ × α) := l.filter fun e => e.1 != k

/-- Puts an entry at the end, in place of any other of its key. -/
def put (l : List (κ × α)) (k : κ) (a : α) : List (κ × α) := erase l k ++ [(k, a)]

theorem lookup_erase_self (l : List (κ × α)) (k : κ) : (erase l k).lookup k = none := by
  rw [List.lookup_eq_none_iff]
  intro e he
  have : e.1 ≠ k := by simpa using (List.mem_filter.1 he).2
  simpa using fun same => this same.symm

theorem lookup_erase_ne (l : List (κ × α)) {k i : κ} (ne : i ≠ k) :
    (erase l k).lookup i = l.lookup i := by
  induction l with
  | nil => rfl
  | cons e rest ih =>
    unfold erase at ih ⊢
    obtain ⟨j, a⟩ := e
    rw [List.filter_cons]
    split
    · rw [List.lookup_cons, List.lookup_cons, ih]
    · rename_i same
      have hj : j = k := by simpa using same
      have hi : (i == j) = false := by simpa [hj] using ne
      rw [ih, List.lookup_cons, hi]

@[simp] theorem lookup_put_self (l : List (κ × α)) (k : κ) (a : α) :
    (put l k a).lookup k = some a := by
  simp [put, List.lookup_append, lookup_erase_self]

theorem lookup_put_ne (l : List (κ × α)) {k i : κ} (ne : i ≠ k) (a : α) :
    (put l k a).lookup i = l.lookup i := by
  have other : (i == k) = false := by simpa using ne
  rw [put, List.lookup_append, lookup_erase_ne l ne, List.lookup_cons, other]
  simp

theorem erase_eq_self {l : List (κ × α)} {k : κ} (h : k ∉ l.map Prod.fst) : erase l k = l := by
  refine List.filter_eq_self.2 fun e he => ?_
  have : e.1 ≠ k := fun same => h (List.mem_map.2 ⟨e, he, same⟩)
  simpa using this

/-- A new key comes last. -/
theorem put_of_not_mem {l : List (κ × α)} {k : κ} (h : k ∉ l.map Prod.fst) (a : α) :
    put l k a = l ++ [(k, a)] := by
  rw [put, erase_eq_self h]

end CircuitWitness.Assoc
