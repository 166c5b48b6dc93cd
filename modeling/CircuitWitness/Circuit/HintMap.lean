import CircuitWitness.Assoc
import CircuitWitness.Circuit.Error
import CircuitWitness.Hint.Id

/-! # Hint calls

    A hint call asks a function for the values of some wires, from inputs that
    are linear combinations of other wires.  The hint map finds the call that
    produces a wire.  A call enters the map only if none of its wires has a
    producer yet, and then under all of them at once.
-/

namespace CircuitWitness

/-- A call of a hint function. -/
structure HintCall where
  /-- The function that is called. -/
  id : HintId
  inputs : List LinearCombination
  /-- The wires that take the outputs, by position. -/
  wires : List WireId
  deriving DecidableEq, Repr

/-- The call that produces a wire, for every wire that has one. -/
structure HintMap where
  entries : List (WireId × HintCall)

namespace HintMap

/-- No wire has a producer. -/
def empty : HintMap := ⟨[]⟩

instance : Inhabited HintMap := ⟨empty⟩

/-- The number of wires that have a producer. -/
def size (m : HintMap) : Nat := m.entries.length

/-- The wires that have a producer. -/
def wires (m : HintMap) : List WireId := m.entries.map Prod.fst

/-- The call that produces `w`. -/
def producer? (m : HintMap) (w : WireId) : Option HintCall := m.entries.lookup w

/-- Makes `call` the producer of `w`, in place of any other. -/
def assign (m : HintMap) (w : WireId) (call : HintCall) : HintMap :=
  ⟨Assoc.put m.entries w call⟩

@[simp] theorem producer?_assign_self (m : HintMap) (w : WireId) (call : HintCall) :
    (m.assign w call).producer? w = some call := Assoc.lookup_put_self ..

theorem producer?_assign_ne (m : HintMap) {w u : WireId} (ne : u ≠ w) (call : HintCall) :
    (m.assign w call).producer? u = m.producer? u := Assoc.lookup_put_ne _ ne _

/-- Makes `call` the producer of all its wires. -/
def assignAll (m : HintMap) (call : HintCall) : HintMap :=
  call.wires.foldl (fun m w => m.assign w call) m

/-- The first wire of a list that is among `taken` or stood in the list before. -/
def firstTaken (taken : List WireId) : List WireId → Option WireId
  | [] => none
  | w :: rest => if w ∈ taken then some w else firstTaken (w :: taken) rest

/-- Adds a call, unless one of its wires has a producer or is listed twice. -/
def add (m : HintMap) (call : HintCall) : Except CircuitError HintMap :=
  match firstTaken m.wires call.wires with
  | some w => .error (.hintWireMappedTwice w)
  | none => .ok (m.assignAll call)

/-- Every call that has a wire, once: it is listed under the first of its wires. -/
def calls (m : HintMap) : List HintCall :=
  m.entries.filterMap fun e => if e.2.wires.head? = some e.1 then some e.2 else none

end HintMap

end CircuitWitness
