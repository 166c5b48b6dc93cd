import CircuitWitness.Hint.Scratch

/-! # Borrowed buffers are kept apart

    Buffers are borrowed from a pool, written to and given back, any number of them
    at a time and in any order.  A borrower finds zeros in its buffer, whatever the
    integers were left as by others, and after that what it wrote itself: what a
    buffer holds is told by the operations on this buffer alone
    (`Workspace.contents`).  The pool counts what goes out and what comes back, and
    never keeps more than its capacity.
-/

namespace CircuitWitness

namespace Workspace

/-! ## Operations -/

/-- What a borrower can do. -/
inductive Operation where
  | take (name : String) (n : Nat)
  | write (name : String) (i value : Nat)
  | drop (name : String)

/-- The buffer that is operated on. -/
def Operation.buffer : Operation → String
  | take name _ => name
  | write name _ _ => name
  | drop name => name

/-- The workspace after an operation.  A write past the end of a buffer, or without
    one, changes nothing. -/
def after (w : Workspace) : Operation → Workspace
  | .take name n => w.take name n
  | .write name i value =>
    match w.write name i value with
    | .ok w' => w'
    | .error _ => w
  | .drop name => w.drop name

/-- The workspace after operations that were made one after another. -/
def afterAll (w : Workspace) (ops : List Operation) : Workspace := ops.foldl after w

/-- What an operation makes of a buffer, if it is live. -/
def Operation.onBuffer : Operation → Option (List Nat) → Option (List Nat)
  | take _ n, _ => some (List.replicate n 0)
  | write _ i value, held => held.map fun values => values.set i value
  | drop _, _ => none

/-- What a buffer holds by its own operations alone, if it is live after them. -/
def contents (name : String) (ops : List Operation) : Option (List Nat) :=
  (ops.filter fun op => op.buffer = name).foldl (fun held op => op.onBuffer held) none

/-! ## What a buffer holds -/

theorem read_drop_self (w : Workspace) (name : String) : (w.drop name).read name = none := by
  unfold drop
  split
  · rename_i hnone
    exact hnone
  · exact Assoc.lookup_erase_self _ _

/-- A write changes one entry of its buffer, or nothing if there is no such entry. -/
theorem after_write_cases (w : Workspace) (name : String) (i value : Nat) :
    (∃ values, w.read name = some values ∧ i < values.length ∧
        w.after (.write name i value) =
          { w with live := Assoc.put w.live name (values.set i value) }) ∨
      ((∀ values, w.read name = some values → values.length ≤ i) ∧
        w.after (.write name i value) = w) := by
  -- a write takes place in a buffer that is there, and within its length
  cases hread : w.read name with
  | none => exact .inr ⟨nofun, by simp only [after, write, hread]⟩
  | some values =>
    by_cases hlt : i < values.length
    · exact .inl ⟨values, rfl, hlt, by simp only [after, write, hread, if_pos hlt]⟩
    · refine .inr ⟨?_, by simp only [after, write, hread, if_neg hlt]⟩
      intro values' heq
      cases heq
      omega

theorem read_after_write_self (w : Workspace) (name : String) (i value : Nat) :
    (w.after (.write name i value)).read name =
      (w.read name).map fun values => values.set i value := by
  rcases w.after_write_cases name i value with ⟨values, hread, hlt, hafter⟩ | ⟨hshort, hafter⟩
  · rw [hafter, hread]
    exact Assoc.lookup_put_self ..
  · rw [hafter]
    cases hread : w.read name with
    | none => rfl
    | some values => rw [Option.map_some, List.set_eq_of_length_le (hshort values hread)]

/-- An operation does to its buffer what it would do to it alone. -/
theorem read_after_self (w : Workspace) (op : Operation) :
    (w.after op).read op.buffer = op.onBuffer (w.read op.buffer) := by
  cases op with
  | take name n => exact w.read_take_self name n
  | write name i value => exact w.read_after_write_self name i value
  | drop name => exact w.read_drop_self name

/-- An operation does not show in the other buffers. -/
theorem read_after_ne (w : Workspace) {op : Operation} {other : String} (ne : other ≠ op.buffer) :
    (w.after op).read other = w.read other := by
  cases op with
  | take name n => exact w.read_take_ne ne n
  | drop name => exact w.read_drop_ne ne
  | write name i value =>
    rcases w.after_write_cases name i value with ⟨values, -, -, hafter⟩ | ⟨-, hafter⟩
    · rw [hafter]
      exact Assoc.lookup_put_ne _ ne _
    · rw [hafter]

/-- Of all operations a buffer sees its own, each on what the one before it left. -/
theorem read_afterAll (w : Workspace) (ops : List Operation) (name : String) :
    (w.afterAll ops).read name = (ops.filter fun op => op.buffer = name).foldl
      (fun held op => op.onBuffer held) (w.read name) := by
  induction ops generalizing w with
  | nil => rfl
  | cons op rest ih =>
    rw [afterAll, List.foldl_cons, ← afterAll, ih (w.after op)]
    by_cases heq : op.buffer = name
    · rw [List.filter_cons_of_pos (by simpa using heq), List.foldl_cons, ← heq, read_after_self]
    · rw [List.filter_cons_of_neg (by simpa using heq), w.read_after_ne (Ne.symm heq)]

/-! ## What the pool keeps -/

/-- The pool of the workspace keeps no more than it has room for. -/
def Fits (w : Workspace) (capacity : Nat) : Prop :=
  w.pool.capacity = capacity ∧ w.pool.available ≤ capacity

/-- The integers of a live buffer; a buffer that is not live has none. -/
def held (w : Workspace) (name : String) : Nat := ((w.read name).getD []).length

section Pool

variable {w : Workspace} {capacity : Nat}

theorem available_drop (h : w.Fits capacity) (name : String) :
    (w.drop name).pool.available = min capacity (w.pool.available + w.held name) := by
  obtain ⟨rfl, hle⟩ := h
  unfold drop held
  cases w.read name with
  | none =>
    show w.pool.available = min w.pool.capacity (w.pool.available + 0)
    omega
  | some values => exact ScratchPool.available_giveBack hle values

theorem capacity_drop (w : Workspace) (name : String) :
    (w.drop name).pool.capacity = w.pool.capacity := by
  unfold drop
  cases w.read name with
  | none => rfl
  | some values => rfl

/-- A live buffer of that name comes back after the new one went out. -/
theorem available_take (h : w.Fits capacity) (name : String) (n : Nat) :
    (w.take name n).pool.available = min capacity (w.pool.available - n + w.held name) := by
  obtain ⟨rfl, hle⟩ := h
  have hlent : Fits { w with pool := (w.pool.take n).2 } w.pool.capacity := by
    refine ⟨ScratchPool.capacity_take _ _, ?_⟩
    rw [ScratchPool.available_take]
    omega
  have hdrop := available_drop hlent name
  rw [ScratchPool.available_take] at hdrop
  exact hdrop

theorem pool_after_write (w : Workspace) (name : String) (i value : Nat) :
    (w.after (.write name i value)).pool = w.pool := by
  rcases w.after_write_cases name i value with ⟨values, -, -, hafter⟩ | ⟨-, hafter⟩
  · rw [hafter]
  · rw [hafter]

theorem Fits.after (h : w.Fits capacity) (op : Operation) : (w.after op).Fits capacity := by
  -- only taking and dropping touch the pool, and either keeps to the capacity
  cases op with
  | take name n =>
    refine ⟨(capacity_drop _ name).trans h.1, ?_⟩
    show (w.take name n).pool.available ≤ capacity
    rw [available_take h]
    omega
  | write name i value =>
    unfold Fits
    rw [pool_after_write]
    exact h
  | drop name =>
    refine ⟨(capacity_drop w name).trans h.1, ?_⟩
    show (w.drop name).pool.available ≤ capacity
    rw [available_drop h]
    omega

theorem Fits.afterAll (h : w.Fits capacity) (ops : List Operation) :
    (w.afterAll ops).Fits capacity := by
  induction ops generalizing w with
  | nil => exact h
  | cons op rest ih => exact ih (h.after op)

end Pool

theorem fits_new (capacity : Nat) : (new capacity).Fits capacity := ⟨rfl, Nat.zero_le _⟩

/-! ## All buffers together -/

/-- What can be seen of a workspace after operations on a new one of a capacity. -/
structure Apart (w : Workspace) (capacity : Nat) (ops : List Operation) : Prop where
  capacity_eq : w.pool.capacity = capacity
  available_le : w.pool.available ≤ capacity
  /-- Every buffer holds what its own operations made of it. -/
  read_eq : ∀ name, w.read name = contents name ops
  /-- A new buffer has the entries that were asked for, and they are zero. -/
  read_take : ∀ name n, (w.take name n).read name = some (List.replicate n 0)
  /-- Whatever is done next to one buffer does not show in another. -/
  read_other : ∀ (op : Operation) (other : String), other ≠ op.buffer →
    (w.after op).read other = w.read other
  available_take : ∀ name n, w.read name = none →
    (w.take name n).pool.available = w.pool.available - min w.pool.available n
  /-- A buffer that is replaced comes back after the new one went out. -/
  available_replace : ∀ name values n, w.read name = some values →
    (w.take name n).pool.available =
      min capacity (w.pool.available - min w.pool.available n + values.length)
  available_write : ∀ name i value,
    (w.after (.write name i value)).pool.available = w.pool.available
  available_drop : ∀ name values, w.read name = some values →
    (w.drop name).pool.available = min capacity (w.pool.available + values.length)

end Workspace

open Workspace in
/-- Whatever was borrowed, written and given back before, every buffer holds what its own
    operations made of zeros, and the pool keeps count up to its capacity. -/
theorem borrowed_apart (capacity : Nat) (ops : List Workspace.Operation) :
    ((Workspace.new capacity).afterAll ops).Apart capacity ops := by
  have hfits := (fits_new capacity).afterAll ops
  have hread := fun name => (Workspace.new capacity).read_afterAll ops name
  -- from here on only the sizes and the contents count
  generalize (Workspace.new capacity).afterAll ops = w at hfits hread
  have hsub : ∀ n, w.pool.available - min w.pool.available n = w.pool.available - n := by omega
  refine ⟨hfits.1, hfits.2, hread, w.read_take_self, fun _ _ ne => w.read_after_ne ne,
    ?_, ?_, ?_, ?_⟩
  · intro name n hnone
    have hle := hfits.2
    rw [available_take hfits, held, hnone, hsub]
    show min capacity (w.pool.available - n + 0) = _
    omega
  · intro name values n hsome
    rw [available_take hfits, held, hsome, hsub]
    rfl
  · intro name i value
    rw [pool_after_write]
  · intro name values hsome
    rw [available_drop hfits, held, hsome]
    rfl

/-- Two buffers are out at a time.  The first is dirty when it comes back, and a part of it
    goes out again, clean. -/
example :
    let w := (Workspace.new 2).afterAll
      [.take "a" 3, .take "b" 1, .write "a" 0 7, .write "a" 2 9, .write "b" 0 5, .drop "a",
        .take "c" 1]
    w.read "b" = some [5] ∧ w.read "c" = some [0] ∧ w.pool.available = 1 := by
  decide

end CircuitWitness
