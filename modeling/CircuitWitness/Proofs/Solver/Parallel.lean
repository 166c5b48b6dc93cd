import CircuitWitness.Proofs.Solver.Execution
import CircuitWitness.Solver.Run

/-! # Two executions side by side

    Two steps are executed from two states that go together.  They run in
    parallel if they end alike: both with a value or both stopped, again in states
    that go together.  A sequence of steps runs in parallel to another if its
    parts do (`parallel_bind`), so a relation between two solves is shown for one
    step at a time.
-/

namespace CircuitWitness.Solving

variable {c : Curve} {α β γ δ : Type}

/-- Two executions end alike: with values related by `S`, or stopped for reasons
    related by `E`, and in states related by `R`. -/
inductive Alike (R : SolveState c → SolveState c → Prop)
    (E : Stop SolverError → Stop SolverError → Prop) (S : α → β → Prop) :
    Except (Stop SolverError) α × SolveState c → Except (Stop SolverError) β × SolveState c →
      Prop where
  | ok {a : α} {b : β} {st st' : SolveState c} (hvalue : S a b) (hst : R st st') :
      Alike R E S (.ok a, st) (.ok b, st')
  | stopped {e e' : Stop SolverError} {st st' : SolveState c} (hstop : E e e') (hst : R st st') :
      Alike R E S (.error e, st) (.error e', st')

/-- From states that go together the two steps end alike. -/
def Parallel (R : SolveState c → SolveState c → Prop)
    (E : Stop SolverError → Stop SolverError → Prop) (S : α → β → Prop)
    (x : Solving c α) (y : Solving c β) : Prop :=
  ∀ st st', R st st' → Alike R E S (exec x st) (exec y st')

variable {R : SolveState c → SolveState c → Prop} {E : Stop SolverError → Stop SolverError → Prop}

theorem parallel_pure {S : α → β → Prop} {a : α} {b : β} (h : S a b) :
    Parallel R E S (pure a : Solving c α) (pure b) :=
  fun _ _ hst => .ok h hst

theorem parallel_fail {S : α → β → Prop} {e e' : SolverError} (h : E (.error e) (.error e')) :
    Parallel R E S (fail e : Solving c α) (fail e') :=
  fun _ _ hst => .stopped h hst

/-- Reports run in parallel if the relation does not look at what they add. -/
theorem parallel_report {e e' : Event}
    (h : ∀ st st', R st st' → R { st with trace := st.trace.push e }
      { st' with trace := st'.trace.push e' }) :
    Parallel R E Eq (report e : Solving c Unit) (report e') :=
  fun st st' hst => .ok rfl (h st st' hst)

/-- The same is read off states with one solution. -/
theorem parallel_read (hR : ∀ st st', R st st' → st.solution = st'.solution) (hE : ∀ e, E e e)
    (f : Solution c → Except Fault α) : Parallel R E Eq (read f) (read f) := by
  intro st st' hst
  rw [exec_read, exec_read, hR st st' hst]
  cases f st'.solution with
  | ok a => exact .ok rfl hst
  | error fault => exact .stopped (hE _) hst

theorem parallel_bind {S : α → β → Prop} {S' : γ → δ → Prop} {x : Solving c α} {y : Solving c β}
    {f : α → Solving c γ} {g : β → Solving c δ} (hx : Parallel R E S x y)
    (hf : ∀ a b, S a b → Parallel R E S' (f a) (g b)) : Parallel R E S' (x >>= f) (y >>= g) := by
  intro st st' hst
  rw [exec_bind, exec_bind]
  have hends := hx st st' hst
  -- the first steps end alike, and only then do the second ones begin
  cases hexec : exec x st with
  | mk r mid =>
    cases hexec' : exec y st' with
    | mk r' mid' =>
      rw [hexec, hexec'] at hends
      cases hends with
      | ok hvalue hmid => exact hf _ _ hvalue _ _ hmid
      | stopped hstop hmid => exact .stopped hstop hmid

/-- A sequence of steps of which the first passes on the same value in both. -/
theorem parallel_bind_eq {S : β → γ → Prop} {x y : Solving c α} {f : α → Solving c β}
    {g : α → Solving c γ} (hx : Parallel R E Eq x y) (hf : ∀ a, Parallel R E S (f a) (g a)) :
    Parallel R E S (x >>= f) (y >>= g) := by
  apply parallel_bind hx
  intro a b hab
  subst hab
  exact hf a

end CircuitWitness.Solving
