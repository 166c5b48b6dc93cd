import CircuitWitness.Proofs.Solver.Change

/-! # The books of a solution are right

    A solution keeps a count of its solved wires, tells from it whether all of them
    are solved, and hands out what it has stored for every wire in the end, solved
    or not.  The five operations on a solution call one another and may stop half
    way, with an error or with a fault.  None of them adds a wire or takes one away,
    none changes what is solved (`Solution.Extends`), and none stores anything for a
    wire that it leaves unsolved (`Solution.Untouched`).  So after any number of
    operations the count, the test and the values are those of the wires that are
    solved (`Solution.Kept`).
-/

namespace CircuitWitness

open Solving Relation

variable {c : Curve}

/-! ## Operations -/

/-- What can be asked of a solution.  Nothing is assumed of the gates and the calls. -/
inductive Solution.Operation (c : Curve) where
  | set (w : WireId) (x : Scalar c)
  /-- A wire is solved by a call that is handed over with it. -/
  | call (w : WireId) (call : HintCall)
  /-- The wire of a term is solved by the call behind it, if there is one. -/
  | resolve (t : Term)
  | visit {k : Kind} (g : Gate k)

/-- An operation, the context that it reads and the pool that it borrows from. -/
structure Request (c : Curve) where
  context : Context c
  pool : ScratchPool
  operation : Solution.Operation c

/-- Performs an operation. -/
def Solution.Operation.perform (ctx : Context c) : Solution.Operation c → Solving c Unit
  | set w x => Solving.set w x
  | call w hintCall => solveWithHint ctx w hintCall
  | resolve t => CircuitWitness.resolve ctx t
  | visit g => do
    let _ ← g.solve ctx
    return

/-- The state after a request, however the operation ended. -/
def SolveState.after (st : SolveState c) (r : Request c) : SolveState c :=
  (exec (r.operation.perform r.context) { st with pool := r.pool }).2

/-- The state after requests that were made one after another. -/
def SolveState.afterAll (st : SolveState c) (rs : List (Request c)) : SolveState c :=
  rs.foldl SolveState.after st

theorem changes_perform (ctx : Context c) (op : Solution.Operation c) :
    Follows Change Change (op.perform ctx) := by
  cases op with
  | set w x => exact changes_set w x
  | call w hintCall => exact changes_solveWithHint ctx w hintCall
  | resolve t => exact changes_resolve ctx t
  | visit g => exact follows_bind (changes_gate ctx g) fun _ => follows_pure ()

theorem changes_after (st : SolveState c) (r : Request c) :
    ReflTransGen Change st (st.after r) := by
  have hoperation : ReflTransGen Change { st with pool := r.pool } (st.after r) :=
    changes_of_exec (changes_perform r.context r.operation) rfl
  exact .head (.pooled r.pool) hoperation

theorem changes_afterAll (st : SolveState c) (rs : List (Request c)) :
    ReflTransGen Change st (st.afterAll rs) := by
  induction rs generalizing st with
  | nil => exact .refl
  | cons r rest ih => exact (changes_after st r).trans (ih (st.after r))

/-! ## The books -/

namespace Solution

/-- The books of a solution of `n` wires are right. -/
structure Kept (s : Solution c) (n : Nat) : Prop where
  nWires_eq : s.nWires = n
  /-- The count is that of the solved wires. -/
  nSolved_eq : s.nSolved = ((List.range n).filter fun i => (s.get? ⟨i⟩).isSome).length
  isValid_iff : s.isValid = true ↔ ∀ w : WireId, w.index < n → (s.get? w).isSome
  /-- What is handed out for a wire is its value, and zero if it is unsolved. -/
  complete_eq : ∀ w : WireId, w.index < n → s.complete[w.index]? = some ((s.get? w).getD 0)
  size_complete : s.complete.size = n

/-- The flags are those of the wires that are seen to have a value. -/
theorem toList_solved (s : Solution c) :
    s.solved.toList = (List.range s.nWires).map fun i => (s.get? ⟨i⟩).isSome := by
  apply List.ext_getElem
  · simpa [nWires] using s.size_solved
  · intro i hi _
    have hlt : i < s.solved.size := by simpa using hi
    simp [isSome_get?_eq (w := ⟨i⟩) (Array.getElem?_eq_getElem hlt)]

theorem Counted.nSolved_eq {s : Solution c} (hs : s.Counted) :
    s.nSolved = ((List.range s.nWires).filter fun i => (s.get? ⟨i⟩).isSome).length := by
  rw [hs, ← Array.countP_toList, toList_solved, List.countP_map, List.countP_eq_length_filter]
  rfl

/-- What is stored for a wire is its value, and the zero from the start if it has none. -/
theorem Untouched.complete_eq {s : Solution c} (hs : s.Untouched) {w : WireId}
    (hw : w.index < s.nWires) : s.complete[w.index]? = some ((s.get? w).getD 0) := by
  cases hget : s.get? w with
  | none => exact hs w hw hget
  | some x => exact getElem?_complete hget

theorem Counted.kept {s : Solution c} (hs : s.Counted) (hzeros : s.Untouched) :
    s.Kept s.nWires where
  nWires_eq := rfl
  nSolved_eq := hs.nSolved_eq
  isValid_iff := Solution.isValid_iff hs
  complete_eq _ hw := hzeros.complete_eq hw
  size_complete := s.size_complete

end Solution

/-- After any operations on a new solution its books are right, and whatever is solved
    then stays solved, with the same value, in every later state. -/
theorem solution_kept (n : Nat) (pool : ScratchPool) (trace : Array Event)
    (earlier later : List (Request c)) :
    let st := SolveState.afterAll ⟨.unsolved n, pool, trace⟩ earlier
    st.solution.Kept n ∧
      ∀ w x, st.solution.get? w = some x → (st.afterAll later).solution.get? w = some x := by
  intro st
  -- either part of the history is a path of changes, and the invariants go along it
  have hearlier := changes_afterAll ⟨Solution.unsolved n, pool, trace⟩ earlier
  have hlater := extends_of_changes (changes_afterAll st later)
  have hcounted := counted_of_changes hearlier (Solution.counted_unsolved n)
  have huntouched := untouched_of_changes hearlier (Solution.untouched_unsolved n)
  have hn := (extends_of_changes hearlier).nWires_eq
  rw [Solution.nWires_unsolved] at hn
  constructor
  · have hkept := hcounted.kept huntouched
    rw [hn] at hkept
    exact hkept
  · exact hlater.keeps

/-- A call that lists a wire twice solves it once and stops there with a fault. -/
example :
    let twice : HintCall := ⟨⟨7⟩, [], [⟨1⟩, ⟨1⟩, ⟨2⟩]⟩
    let five : HintFunction := ⟨⟨7⟩, "five", .any, fun _ => 3, .fill fun _ _ _ => 5⟩
    let request : Request .bn254 := ⟨⟨.new, ⟨[five]⟩, .empty⟩, default, .call ⟨2⟩ twice⟩
    let st := SolveState.afterAll ⟨.unsolved 3, default, #[]⟩ [request]
    st.solution.values = #[0, .ofNat 5, 0] ∧ st.solution.solved = #[false, true, false] ∧
      st.solution.nSolved = 1 := by
  decide +kernel

end CircuitWitness
