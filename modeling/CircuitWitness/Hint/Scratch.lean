import CircuitWitness.Assoc
import CircuitWitness.Fault

/-! # Scratch integers

    Hint calls borrow the integers of their inputs and outputs from a pool and
    give them back, so that integers are used again.  The pool keeps what it is
    given as it was left, up to its capacity; whatever it lends out is zero.

    A workspace is a pool with the buffers that are out at a time, by name.
-/

namespace CircuitWitness

/-- The integers that wait to be lent out. -/
structure ScratchPool where
  /-- The next integer to be lent out stands last. -/
  free : List Nat
  /-- How many integers the pool keeps at most. -/
  capacity : Nat
  deriving Repr

namespace ScratchPool

/-- The capacity of a pool that is given none. -/
def defaultCapacity : Nat := 256

/-- The empty pool of a capacity. -/
def new (capacity : Nat) : ScratchPool := ⟨[], capacity⟩

instance : Inhabited ScratchPool := ⟨new defaultCapacity⟩

/-- How many integers wait to be lent out. -/
def available (p : ScratchPool) : Nat := p.free.length

/-- Lends `n` zeros: integers of the pool as far as there are any, and new ones. -/
def take (p : ScratchPool) (n : Nat) : List Nat × ScratchPool :=
  let kept := p.free.length - n
  -- what the integers were left as is not shown to the next borrower
  let lent := (p.free.drop kept).map fun _ => 0
  (lent ++ List.replicate (n - lent.length) 0, { p with free := p.free.take kept })

/-- Takes integers back as far as there is room. -/
def giveBack (p : ScratchPool) (values : List Nat) : ScratchPool :=
  { p with free := p.free ++ values.take (p.capacity - p.free.length) }

@[simp] theorem take_fst (p : ScratchPool) (n : Nat) :
    (p.take n).1 = List.replicate n 0 := by
  simp only [take, List.map_const', List.length_drop, List.length_replicate]
  rw [List.replicate_append_replicate]
  congr 1
  omega

@[simp] theorem capacity_take (p : ScratchPool) (n : Nat) :
    (p.take n).2.capacity = p.capacity := rfl

@[simp] theorem available_take (p : ScratchPool) (n : Nat) :
    (p.take n).2.available = p.available - n := by
  simp only [take, available, List.length_take]
  omega

@[simp] theorem capacity_giveBack (p : ScratchPool) (values : List Nat) :
    (p.giveBack values).capacity = p.capacity := rfl

theorem available_giveBack {p : ScratchPool} (h : p.available ≤ p.capacity)
    (values : List Nat) :
    (p.giveBack values).available = min p.capacity (p.available + values.length) := by
  simp only [available] at h
  simp only [giveBack, available, List.length_append, List.length_take]
  omega

end ScratchPool

/-! ## Workspaces -/

/-- A pool and the buffers that are lent out. -/
structure Workspace where
  pool : ScratchPool
  /-- By name, each name at most once. -/
  live : List (String × List Nat)
  deriving Inhabited

namespace Workspace

/-- The workspace of an empty pool. -/
def new (capacity : Nat) : Workspace := ⟨.new capacity, []⟩

/-- The content of a live buffer. -/
def read (w : Workspace) (name : String) : Option (List Nat) := w.live.lookup name

/-- Gives a live buffer back to the pool. -/
def drop (w : Workspace) (name : String) : Workspace :=
  match w.read name with
  | none => w
  | some values => ⟨w.pool.giveBack values, Assoc.erase w.live name⟩

/-- Borrows a buffer of `n` integers.  A live buffer of that name is given back
    after the new one is lent. -/
def take (w : Workspace) (name : String) (n : Nat) : Workspace :=
  let (values, pool) := w.pool.take n
  let w := { w with pool }.drop name
  { w with live := Assoc.put w.live name values }

/-- Writes an integer into a live buffer. -/
def write (w : Workspace) (name : String) (i value : Nat) : Except Fault Workspace :=
  match w.read name with
  | none => .error .outOfBounds
  | some values =>
    if i < values.length then .ok { w with live := Assoc.put w.live name (values.set i value) }
    else .error .outOfBounds

@[simp] theorem read_take_self (w : Workspace) (name : String) (n : Nat) :
    (w.take name n).read name = some (List.replicate n 0) := by
  simp only [take, read, Assoc.lookup_put_self, ScratchPool.take_fst]

theorem read_drop_ne (w : Workspace) {name other : String} (ne : other ≠ name) :
    (w.drop name).read other = w.read other := by
  unfold drop
  split
  · rfl
  · exact Assoc.lookup_erase_ne _ ne

theorem read_take_ne (w : Workspace) {name other : String} (ne : other ≠ name) (n : Nat) :
    (w.take name n).read other = w.read other := by
  simp only [take, read, Assoc.lookup_put_ne _ ne]
  exact read_drop_ne _ ne

end Workspace

end CircuitWitness
