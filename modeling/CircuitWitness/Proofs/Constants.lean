import CircuitWitness.Assoc
import CircuitWitness.Proofs.Circuit.Interning

/-! # Every constant has one index

    A table grows by interning constants one after another.  A constant that the
    table holds is found where it stands, and one that is new goes to the end.  No
    index ever changes its constant, so the table reads as the reserved constants
    and then all others in the order in which they first came up.

    A table is searched for a constant from its start.  One that keeps an index from
    constants to their places next to its values, and writes to both when it grows,
    need not search (`IndexedTable`).  The two structures stay inverse to each other
    however the table grew, and so it gives the same answers.
-/

namespace CircuitWitness

variable {c : Curve}

theorem reservedConstants_eq (c : Curve) : reservedConstants c = [0, 1, 2, -1] := by
  rw [reservedConstants, Scalar.double_eq, mul_one]

namespace CoefficientTable

variable {table : CoefficientTable c} {u v : Scalar c} {id id' : CoeffId}

/-! ## The constants of a table -/

theorem get?_reserved (table : CoefficientTable c) {i : Nat} (h : i < 4) :
    table.get? ⟨i⟩ = ([0, 1, 2, -1] : List (Scalar c))[i]? := by
  rw [← reservedConstants_eq]
  exact table.reserved_getElem? h

theorem get?_inj (h : table.get? id = some v) (h' : table.get? id' = some v) : id = id' := by
  have hlookup := lookup_eq_some_iff.2 h
  rw [lookup_eq_some_iff.2 h'] at hlookup
  exact (Option.some.inj hlookup).symm

/-- Zero stands nowhere but in its reserved place. -/
theorem get?_eq_zero_iff : table.get? id = some 0 ↔ id = .zero := by
  have hzero : table.get? .zero = some 0 := table.get?_reserved (by decide)
  constructor
  · intro h
    exact get?_inj h hzero
  · rintro rfl
    exact hzero

theorem lookup_eq_none_iff_forall : table.lookup v = none ↔ ∀ id, table.get? id ≠ some v := by
  rw [Option.eq_none_iff_forall_ne_some]
  exact forall_congr' fun id => not_congr lookup_eq_some_iff

/-! ## Interning a constant -/

theorem lookup_eq_none_iff : table.lookup v = none ↔ v ∉ table.values.toList := by
  constructor
  · exact not_mem_of_lookup_eq_none
  · intro hout
    cases hlookup : table.lookup v with
    | none => rfl
    | some id => exact absurd (exists_lookup_iff.1 ⟨id, hlookup⟩) (by simpa using hout)

/-- A constant of the table is not added again. -/
theorem insert_of_lookup (h : table.lookup v = some id) : table.insert v = (id, table) := by
  unfold insert
  split
  · rename_i id' h'
    cases h.symm.trans h'
    rfl
  · rename_i h'
    cases h.symm.trans h'

/-- A new constant goes to the end. -/
theorem insert_of_absent (h : table.lookup v = none) :
    (table.insert v).1 = ⟨table.size⟩ ∧ (table.insert v).2.values = table.values.push v := by
  unfold insert
  split
  · rename_i id' h'
    cases h.symm.trans h'
  · exact ⟨rfl, rfl⟩

/-- An index keeps its constant when the table grows. -/
theorem get?_insert (h : table.get? id = some u) (v : Scalar c) :
    (table.insert v).2.get? id = some u := by
  cases hlookup : table.lookup v with
  | some id' =>
    rw [insert_of_lookup hlookup]
    exact h
  | none =>
    obtain ⟨hlt, -⟩ := get?_eq_some_iff.1 h
    have hne : id.index ≠ table.values.size := Nat.ne_of_lt hlt
    rw [get?, (insert_of_absent hlookup).2, Array.getElem?_push, if_neg hne]
    exact h

/-- The index that interning gives is where the constant stands. -/
theorem get?_insert_self (table : CoefficientTable c) (v : Scalar c) :
    (table.insert v).2.get? (table.insert v).1 = some v := by
  cases hlookup : table.lookup v with
  | some id =>
    rw [insert_of_lookup hlookup]
    exact lookup_eq_some_iff.1 hlookup
  | none =>
    obtain ⟨hid, hvalues⟩ := insert_of_absent hlookup
    rw [get?, hid, hvalues]
    exact Array.getElem?_push_size

theorem toList_insert : (table.insert v).2.values.toList =
    if v ∈ table.values.toList then table.values.toList else table.values.toList ++ [v] := by
  by_cases hmem : v ∈ table.values.toList
  · obtain ⟨id, hlookup⟩ := exists_lookup_iff.2 (Array.mem_def.2 hmem)
    rw [insert_of_lookup hlookup, if_pos hmem]
  · rw [(insert_of_absent (lookup_eq_none_iff.2 hmem)).2, if_neg hmem, Array.toList_push]

/-! ## Interning any number of constants -/

theorem get?_insertAll (h : table.get? id = some u) (vs : List (Scalar c)) :
    (table.insertAll vs).get? id = some u := by
  induction vs generalizing table with
  | nil => exact h
  | cons v rest ih => exact ih (get?_insert h v)

/-- The table is followed by the constants that it lacked, in the order in which they first
    came up. -/
theorem toList_insertAll (table : CoefficientTable c) (vs : List (Scalar c)) :
    (table.insertAll vs).values.toList = table.values.toList ++
      (vs.filter fun v => v ∉ table.values.toList).eraseDups := by
  induction vs generalizing table with
  | nil =>
    show table.values.toList = table.values.toList ++ []
    rw [List.append_nil]
  | cons v rest ih =>
    show ((table.insert v).2.insertAll rest).values.toList = _
    rw [ih, toList_insert]
    by_cases hmem : v ∈ table.values.toList
    · rw [if_pos hmem, List.filter_cons_of_neg (by simpa using hmem)]
    · -- for the rest of the constants `v` is one that the table holds
      have hrest : (rest.filter fun u => u ∉ table.values.toList ++ [v]) =
          (rest.filter fun u => u ∉ table.values.toList).filter fun u => !u == v := by
        rw [List.filter_filter]
        apply List.filter_congr
        intro u _
        by_cases huv : u = v
        · simp [huv]
        · simp [huv]
      rw [if_neg hmem, List.filter_cons_of_pos (by simpa using hmem), List.eraseDups_cons, hrest,
        List.append_assoc]
      rfl

end CoefficientTable

/-! ## Tables with an index -/

/-- Constants by index, and the index of every constant. -/
structure IndexedTable (c : Curve) where
  values : Array (Scalar c)
  index : List (Scalar c × CoeffId)

namespace IndexedTable

/-- Interns a constant: a new one is pushed and entered in the index. -/
def insert (t : IndexedTable c) (v : Scalar c) : CoeffId × IndexedTable c :=
  match t.index.lookup v with
  | some id => (id, t)
  | none => (⟨t.values.size⟩, ⟨t.values.push v, Assoc.put t.index v ⟨t.values.size⟩⟩)

/-- Interns constants one after another. -/
def insertAll (t : IndexedTable c) (vs : List (Scalar c)) : IndexedTable c :=
  vs.foldl (fun t v => (t.insert v).2) t

/-- Nothing is interned. -/
def empty : IndexedTable c := ⟨#[], []⟩

/-- The reserved constants are interned, in their order. -/
def new : IndexedTable c := empty.insertAll (reservedConstants c)

/-- The index and the values are inverse to each other. -/
def Inverse (t : IndexedTable c) : Prop :=
  ∀ v id, t.index.lookup v = some id ↔ t.values[id.index]? = some v

variable {t : IndexedTable c} {table : CoefficientTable c}

theorem inverse_empty : (empty : IndexedTable c).Inverse := by
  intro v id
  simp [empty]

theorem Inverse.insert (h : t.Inverse) (v : Scalar c) : (t.insert v).2.Inverse := by
  unfold IndexedTable.insert
  cases hlookup : t.index.lookup v with
  | some id => exact h
  | none =>
    intro u id
    show (Assoc.put t.index v ⟨t.values.size⟩).lookup u = some id ↔
      (t.values.push v)[id.index]? = some u
    rw [Array.getElem?_push]
    by_cases hlast : id.index = t.values.size
    · -- the last place holds `v`, which the index now has there
      have hid : id = ⟨t.values.size⟩ := by rw [← hlast]
      rw [if_pos hlast, hid]
      by_cases huv : u = v
      · subst huv
        simp
      · have hnone : t.index.lookup u ≠ some ⟨t.values.size⟩ := by
          rw [Ne, h]
          simp
        rw [Assoc.lookup_put_ne _ huv]
        simp [hnone, Ne.symm huv]
    · rw [if_neg hlast]
      by_cases huv : u = v
      · subst huv
        have hout : t.values[id.index]? ≠ some u := by
          rw [Ne, ← h, hlookup]
          nofun
        have hne : (⟨t.values.size⟩ : CoeffId) ≠ id := fun heq => hlast (heq ▸ rfl)
        simp [hout, hne]
      · rw [Assoc.lookup_put_ne _ huv]
        exact h u id

theorem Inverse.insertAll (h : t.Inverse) (vs : List (Scalar c)) : (t.insertAll vs).Inverse := by
  induction vs generalizing t with
  | nil => exact h
  | cons v rest ih => exact ih (h.insert v)

/-- The tables hold the same constants, and the index of the one is right. -/
structure Mirrors (t : IndexedTable c) (table : CoefficientTable c) : Prop where
  inverse : t.Inverse
  values_eq : t.values = table.values

/-- Searching the table finds what the index says. -/
theorem Mirrors.lookup_eq (h : t.Mirrors table) (v : Scalar c) :
    t.index.lookup v = table.lookup v := by
  apply Option.ext
  intro id
  rw [h.inverse, h.values_eq, CoefficientTable.lookup_eq_some_iff, CoefficientTable.get?]

/-- Interning gives the same index in both tables, and makes the same of them. -/
theorem Mirrors.insert (h : t.Mirrors table) (v : Scalar c) :
    (t.insert v).1 = (table.insert v).1 ∧ (t.insert v).2.Mirrors (table.insert v).2 := by
  have hinverse := h.inverse.insert v
  have hsize : t.values.size = table.size := by rw [h.values_eq, CoefficientTable.size]
  unfold IndexedTable.insert at hinverse ⊢
  rw [h.lookup_eq] at hinverse ⊢
  -- both tables find a constant, or both put it at their end
  cases hlookup : table.lookup v with
  | some id =>
    rw [CoefficientTable.insert_of_lookup hlookup]
    exact ⟨rfl, h⟩
  | none =>
    rw [hlookup] at hinverse
    obtain ⟨hid, hvalues⟩ := CoefficientTable.insert_of_absent hlookup
    refine ⟨by rw [hid, hsize], hinverse, ?_⟩
    rw [hvalues, h.values_eq]

theorem Mirrors.insertAll (h : t.Mirrors table) (vs : List (Scalar c)) :
    (t.insertAll vs).Mirrors (table.insertAll vs) := by
  induction vs generalizing t table with
  | nil => exact h
  | cons v rest ih => exact ih (h.insert v).2

/-- A new table has the reserved constants at their indices. -/
theorem mirrors_new (c : Curve) : (new : IndexedTable c).Mirrors .new where
  inverse := inverse_empty.insertAll _
  values_eq := by cases c <;> decide

end IndexedTable

/-! ## All constants together -/

/-- What can be seen of a table that was built by interning these constants. -/
structure CoefficientTable.Interned (t : CoefficientTable c) (history : List (Scalar c)) :
    Prop where
  /-- The constants that are not reserved stand where they first came up. -/
  values_eq : t.values.toList = [0, 1, 2, -1] ++
    (history.filter fun v => v ∉ ([0, 1, 2, -1] : List (Scalar c))).eraseDups
  reserved : t.get? .zero = some 0 ∧ t.get? .one = some 1 ∧ t.get? .two = some 2 ∧
    t.get? .minusOne = some (-1)
  injective : ∀ {id id' v}, t.get? id = some v → t.get? id' = some v → id = id'
  get?_eq_zero_iff : ∀ {id}, t.get? id = some 0 ↔ id = .zero
  lookup_iff : ∀ {v id}, t.lookup v = some id ↔ t.get? id = some v
  get?_insert : ∀ v, (t.insert v).2.get? (t.insert v).1 = some v
  insert_known : ∀ {v id}, t.get? id = some v → t.insert v = (id, t)
  insert_new : ∀ {v}, (∀ id, t.get? id ≠ some v) →
    (t.insert v).1 = ⟨t.size⟩ ∧ (t.insert v).2.size = t.size + 1
  /-- Whatever is interned later, an index keeps its constant. -/
  kept : ∀ {id v}, t.get? id = some v → ∀ later, (t.insertAll later).get? id = some v
  /-- A table that keeps an index has the same history. -/
  mirrored : (IndexedTable.new.insertAll history).Mirrors t

open CoefficientTable in
/-- Whatever was interned, every constant of the table has one index, and that for good. -/
theorem constants_interned (history : List (Scalar c)) :
    (CoefficientTable.new.insertAll history).Interned history := by
  have hvalues := toList_insertAll .new history
  have hmirrored := (IndexedTable.mirrors_new c).insertAll history
  have hnew : (new : CoefficientTable c).values.toList = [0, 1, 2, -1] := reservedConstants_eq c
  rw [hnew] at hvalues
  -- from here on only the values and the mirror count
  generalize (new : CoefficientTable c).insertAll history = t at hvalues hmirrored
  refine ⟨hvalues, ⟨t.get?_reserved (i := 0) (by decide), t.get?_reserved (i := 1) (by decide),
    t.get?_reserved (i := 2) (by decide), t.get?_reserved (i := 3) (by decide)⟩, get?_inj,
    CoefficientTable.get?_eq_zero_iff, lookup_eq_some_iff, t.get?_insert_self, ?_, ?_, ?_,
    hmirrored⟩
  · intro v id hget
    exact insert_of_lookup (lookup_eq_some_iff.2 hget)
  · intro v habsent
    obtain ⟨hid, hpush⟩ := insert_of_absent (lookup_eq_none_iff_forall.2 habsent)
    refine ⟨hid, ?_⟩
    rw [size, hpush, Array.size_push]
    rfl
  · intro id v hget later
    exact get?_insertAll hget later

/-- Five is new, and two and minus one are reserved; the second five is the first. -/
example : (CoefficientTable.new.insertAll [5, -1, 7, 2, 5] : CoefficientTable .bn254).values =
    #[0, 1, 2, -1, 5, 7] := by
  decide +kernel

end CircuitWitness
