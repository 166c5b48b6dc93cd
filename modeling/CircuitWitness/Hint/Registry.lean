import CircuitWitness.Assoc
import CircuitWitness.Hint.Builtin
import CircuitWitness.Hint.Scratch
import CircuitWitness.Order.Stable

/-! # Registries

    The hint functions that every solve can use, and the scratch integers that
    their calls share.  The functions are kept by identifier and behind a lock.  A
    function is registered once and stays.  A second one under a taken identifier
    stops its caller while it holds the lock, which is poisoned from then on; but
    whoever takes a poisoned lock goes on with what is behind it.
-/

namespace CircuitWitness

/-! ## Locks -/

/-- A value behind a lock. -/
structure Lock (α : Type) where
  content : α
  /-- Someone stopped at a fault while holding the lock. -/
  poisoned : Bool

namespace Lock

variable {α : Type}

/-- A lock that nobody has taken yet. -/
def new (content : α) : Lock α := ⟨content, false⟩

instance [Inhabited α] : Inhabited (Lock α) := ⟨new default⟩

/-- Takes the lock.  A poisoned one is an error, which holds the content all the same. -/
def acquire (l : Lock α) : Except α α :=
  if l.poisoned then .error l.content else .ok l.content

/-- Takes the lock and goes on with the content, poisoned or not. -/
def recover (l : Lock α) : α :=
  match l.acquire with
  | .ok content => content
  | .error content => content

/-- Stops at a fault while holding the lock. -/
def poison (l : Lock α) : Lock α := { l with poisoned := true }

@[simp] theorem recover_eq (l : Lock α) : l.recover = l.content := by
  unfold recover acquire
  cases l.poisoned with
  | true => rfl
  | false => rfl

end Lock

/-! ## Registries -/

/-- The registered functions and the pool of their calls. -/
structure Registry where
  /-- By identifier, in the order of registration. -/
  lock : Lock (List (HintId × HintFunction))
  pool : ScratchPool
  deriving Inhabited

/-- The line of a trace about a function that was registered. -/
structure Registered where
  name : String
  id : HintId
  deriving DecidableEq, Repr

/-- What the trace says about the function. -/
def HintFunction.registered (h : HintFunction) : Registered := ⟨h.name, h.id⟩

/-- How a registration ended, and what it left behind. -/
structure Registration where
  result : Except Fault HintId
  /-- The registry after the registration, refused or not. -/
  registry : Registry
  reported : List Registered

namespace Registry

/-- Nothing is registered. -/
def empty : Registry := ⟨.new [], default⟩

/-- The registered functions, each under the identifier that it was registered with. -/
def handlers (r : Registry) : List (HintId × HintFunction) := r.lock.recover

/-- The registered functions, in the order of registration. -/
def functions (r : Registry) : List HintFunction := r.handlers.map Prod.snd

/-- The function with an identifier. -/
def get? (r : Registry) (id : HintId) : Option HintFunction := r.handlers.lookup id

/-- Whoever held the lock of the registry stopped at a fault. -/
def poison (r : Registry) : Registry := { r with lock := r.lock.poison }

/-- Enters a function under its identifier. -/
def enter (r : Registry) (h : HintFunction) : Registry :=
  { r with lock := { r.lock with content := Assoc.put r.handlers h.id h } }

/-- Registers a function under its identifier. -/
def register (r : Registry) (h : HintFunction) : Registration :=
  match r.get? h.id with
  | some existing =>
    -- the lock is held when the fault is raised
    ⟨.error (.registeredTwice h.name h.id existing.name), r.poison, []⟩
  | none => ⟨.ok h.id, r.enter h, [h.registered]⟩

/-- The number of registered functions. -/
def size (r : Registry) : Nat := r.handlers.length

/-- Nothing is registered. -/
def isEmpty (r : Registry) : Bool := r.size == 0

/-- The registered functions, by identifier. -/
def snapshot (r : Registry) : List HintFunction :=
  Order.sort (fun a b => a.id.word ≤ b.id.word) r.functions

theorem snapshot_perm (r : Registry) : r.snapshot.Perm r.functions := Order.sort_perm _

end Registry

namespace Registration

/-- Registers one more function, unless an earlier one was refused. -/
def andThen (x : Registration) (h : HintFunction) : Registration :=
  match x.result with
  | .error _ => x
  | .ok _ =>
    let y := x.registry.register h
    { y with reported := x.reported ++ y.reported }

end Registration

namespace Registry

/-- Registers the builtin functions in an empty registry. -/
def registerBuiltins : Registration :=
  (((empty.register .isZero).andThen .ithBit).andThen .invZero).andThen .div

/-- The builtin functions are registered. -/
def withBuiltins : Registry := registerBuiltins.registry

end Registry

end CircuitWitness
