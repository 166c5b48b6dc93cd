import CircuitWitness.Proofs.Fallible
import CircuitWitness.Solver.State
import Mathlib.Logic.Relation

/-! # Executions

    A step of a solve takes a state to an outcome and a state.  This module says
    how the basic steps and a sequence of steps execute, and gives three ways to
    reason about a step.

    * Inversion: a sequence that ends with a value went through an intermediate
      state (`exec_bind_eq_ok_iff`).
    * Paths: a step that follows two relations gets from state to state by
      actions of the first, and a step that stops may have taken one last action
      of the second (`Follows`).  What every action preserves is preserved by
      the step.
-/

namespace CircuitWitness.Solving

open Relation

variable {c : Curve} {α β : Type}

/-- The outcome of a step and the state that it leaves. -/
def exec (x : Solving c α) (st : SolveState c) : Except (Stop SolverError) α × SolveState c :=
  x.run.run st

theorem exec_bind (x : Solving c α) (f : α → Solving c β) (st : SolveState c) :
    exec (x >>= f) st =
      match exec x st with
      | (.ok a, mid) => exec (f a) mid
      | (.error stop, mid) => (.error stop, mid) := by
  show (ExceptT.run (x >>= f)).run st = _
  rw [ExceptT.run_bind]
  simp only [exec, StateT.run_bind]
  cases h : x.run.run st with
  | mk r mid => cases r <;> rfl

/-- Only the states in which the first part can end matter to the second. -/
theorem exec_bind_congr {x : Solving c α} {f g : α → Solving c β} {st : SolveState c}
    (h : ∀ a mid, exec x st = (.ok a, mid) → exec (f a) mid = exec (g a) mid) :
    exec (x >>= f) st = exec (x >>= g) st := by
  rw [exec_bind, exec_bind]
  cases hexec : exec x st with
  | mk r mid =>
    cases r with
    | ok a => exact h a mid hexec
    | error stop => rfl

@[simp] theorem exec_read (f : Solution c → Except Fault α) (st : SolveState c) :
    exec (read f) st = ((f st.solution).mapError .fault, st) := rfl

/-! ## Inversion -/

theorem exec_bind_eq_ok_iff {x : Solving c α} {f : α → Solving c β} {st st' : SolveState c}
    {b : β} :
    exec (x >>= f) st = (.ok b, st') ↔
      ∃ a mid, exec x st = (.ok a, mid) ∧ exec (f a) mid = (.ok b, st') := by
  rw [exec_bind]
  rcases exec x st with ⟨r, mid⟩
  cases r with
  | ok a => simp
  | error stop => simp

theorem exec_bind_eq_error_iff {x : Solving c α} {f : α → Solving c β} {st st' : SolveState c}
    {stop : Stop SolverError} :
    exec (x >>= f) st = (.error stop, st') ↔
      exec x st = (.error stop, st') ∨
        ∃ a mid, exec x st = (.ok a, mid) ∧ exec (f a) mid = (.error stop, st') := by
  rw [exec_bind]
  rcases exec x st with ⟨r, mid⟩
  cases r with
  | ok a => simp
  | error stop => simp

theorem exec_read_eq_ok_iff {f : Solution c → Except Fault α} {st st' : SolveState c} {a : α} :
    exec (read f) st = (.ok a, st') ↔ f st.solution = .ok a ∧ st' = st := by
  rw [exec_read, Prod.mk.injEq, mapError_eq_ok_iff]
  constructor
  · intro h
    exact ⟨h.1, h.2.symm⟩
  · intro h
    exact ⟨h.1, h.2.symm⟩

theorem exec_set_of_ok {w : WireId} {x : Scalar c} {st : SolveState c} {solution : Solution c}
    (h : st.solution.set w x = .ok solution) :
    exec (set w x) st = (.ok (), { st with solution }) := by
  show Solving.set w x st = _
  unfold Solving.set
  rw [h]

theorem exec_set_of_error {w : WireId} {x : Scalar c} {st : SolveState c} {f : Fault}
    (h : st.solution.set w x = .error f) : exec (set w x) st = (.error (.fault f), st) := by
  show Solving.set w x st = _
  unfold Solving.set
  rw [h]

theorem exec_set_eq_ok_iff {w : WireId} {x : Scalar c} {st st' : SolveState c} {u : Unit} :
    exec (set w x) st = (.ok u, st') ↔
      ∃ solution, st.solution.set w x = .ok solution ∧ st' = { st with solution } := by
  cases hset : st.solution.set w x with
  | ok solution =>
    rw [exec_set_of_ok hset]
    simp [eq_comm]
  | error f =>
    rw [exec_set_of_error hset]
    simp

/-! ## Faults -/

/-- Every fault that the step can stop with is one of `P`. -/
def Faults (P : Fault → Prop) (x : Solving c α) (st : SolveState c) : Prop :=
  ∀ f, (exec x st).1 = .error (.fault f) → P f

/-- The step does not stop with a fault. -/
def FaultFree (x : Solving c α) (st : SolveState c) : Prop :=
  ∀ f, (exec x st).1 ≠ .error (.fault f)

theorem faultFree_iff {x : Solving c α} {st : SolveState c} :
    FaultFree x st ↔ Faults (fun _ => False) x st := Iff.rfl

section Faults

variable {P : Fault → Prop}

theorem faults_pure (a : α) (st : SolveState c) : Faults P (pure a) st := by
  intro f h
  cases h

theorem faults_read {f : Solution c → Except Fault α} {st : SolveState c}
    (h : ∀ fault, f st.solution = .error fault → P fault) : Faults P (read f) st := by
  intro fault hfault
  rw [exec_read, mapError_eq_error_iff] at hfault
  obtain ⟨fault', hf, hstop⟩ := hfault
  cases hstop
  exact h fault hf

/-- What can be read is read without a fault. -/
theorem faults_read_of_ok {f : Solution c → Except Fault α} {st : SolveState c}
    (h : ∃ a, f st.solution = .ok a) : Faults P (read f) st := by
  apply faults_read
  intro fault hfault
  obtain ⟨a, ha⟩ := h
  rw [ha] at hfault
  cases hfault

theorem faults_bind {x : Solving c α} {f : α → Solving c β} {st : SolveState c}
    (hx : Faults P x st) (hf : ∀ a mid, exec x st = (.ok a, mid) → Faults P (f a) mid) :
    Faults P (x >>= f) st := by
  intro fault hfault
  have hpair : exec (x >>= f) st = (.error (.fault fault), (exec (x >>= f) st).2) :=
    Prod.ext hfault rfl
  rcases exec_bind_eq_error_iff.1 hpair with hx' | ⟨a, mid, hexec, hf'⟩
  · exact hx fault (by rw [hx'])
  · exact hf a mid hexec fault (by rw [hf'])

end Faults

/-! ## Errors -/

/-- If the step stops with an error, `P` holds of the error and of the state that the step
    leaves. -/
def Stops (P : SolverError → SolveState c → Prop) (x : Solving c α) : Prop :=
  ∀ st e st', exec x st = (.error (.error e), st') → P e st'

section Stops

variable {P : SolverError → SolveState c → Prop}

theorem stops_pure (a : α) : Stops P (pure a : Solving c α) := by
  intro st e st' h
  cases h

theorem stops_read (f : Solution c → Except Fault α) : Stops P (read f) := by
  intro st e st' h
  rw [exec_read, Prod.mk.injEq, mapError_eq_error_iff] at h
  obtain ⟨⟨fault, -, habs⟩, -⟩ := h
  cases habs

theorem stops_set (w : WireId) (x : Scalar c) : Stops P (set w x) := by
  intro st e st' h
  cases hset : st.solution.set w x with
  | ok solution =>
    rw [exec_set_of_ok hset] at h
    cases h
  | error f =>
    rw [exec_set_of_error hset] at h
    cases h

theorem stops_bind {x : Solving c α} {f : α → Solving c β} (hx : Stops P x)
    (hf : ∀ a, Stops P (f a)) : Stops P (x >>= f) := by
  intro st e st' h
  rcases exec_bind_eq_error_iff.1 h with hx' | ⟨a, mid, -, hf'⟩
  · exact hx st e st' hx'
  · exact hf a mid e st' hf'

end Stops

/-- Every error that the step can stop with is one of `P`. -/
def Raises (P : SolverError → Prop) (x : Solving c α) : Prop :=
  ∀ st e, (exec x st).1 = .error (.error e) → P e

theorem raises_iff {P : SolverError → Prop} {x : Solving c α} :
    Raises P x ↔ Stops (fun e _ => P e) x := by
  constructor
  · intro h st e st' hexec
    exact h st e (congrArg Prod.fst hexec)
  · intro h st e hfst
    exact h st e (exec x st).2 (Prod.ext hfst rfl)

/-! ## Steps that end -/

/-- The step ends with a value, and `Q` holds of the value and of the state that it leaves. -/
def Ends (Q : α → SolveState c → Prop) (x : Solving c α) (st : SolveState c) : Prop :=
  ∃ a st', exec x st = (.ok a, st') ∧ Q a st'

section Ends

variable {Q : α → SolveState c → Prop} {R : β → SolveState c → Prop}

theorem ends_pure {a : α} {st : SolveState c} (h : Q a st) : Ends Q (pure a) st :=
  ⟨a, st, rfl, h⟩

/-- A sequence of steps ends if its parts do, the second from every end of the first. -/
theorem ends_bind {x : Solving c β} {f : β → Solving c α} {st : SolveState c}
    (hx : Ends R x st) (hf : ∀ b mid, R b mid → Ends Q (f b) mid) : Ends Q (x >>= f) st := by
  obtain ⟨b, mid, hexec, hb⟩ := hx
  obtain ⟨a, st', hexec', ha⟩ := hf b mid hb
  exact ⟨a, st', exec_bind_eq_ok_iff.2 ⟨b, mid, hexec, hexec'⟩, ha⟩

/-- What can be read is read, and the step goes on with it. -/
theorem ends_read {f : Solution c → Except Fault β} {g : β → Solving c α} {st : SolveState c}
    {b : β} (hf : f st.solution = .ok b) (h : Ends Q (g b) st) : Ends Q (read f >>= g) st := by
  refine ends_bind (R := fun b' mid => b' = b ∧ mid = st) ?_ ?_
  · exact ⟨b, st, exec_read_eq_ok_iff.2 ⟨hf, rfl⟩, rfl, rfl⟩
  · rintro _ _ ⟨rfl, rfl⟩
    exact h

end Ends

/-! ## Paths -/

/-- The state was reached by actions `A`; if the step stopped, one last action
    `H` may have followed them. -/
def Path (A H : SolveState c → SolveState c → Prop) (st : SolveState c) :
    Except (Stop SolverError) α × SolveState c → Prop
  | (.ok _, st') => ReflTransGen A st st'
  | (.error _, st') => ∃ mid, ReflTransGen A st mid ∧ (st' = mid ∨ H mid st')

/-- Every execution of the step is a path. -/
def Follows (A H : SolveState c → SolveState c → Prop) (x : Solving c α) : Prop :=
  ∀ st, Path A H st (exec x st)

variable {A H : SolveState c → SolveState c → Prop}

theorem Follows.ok {x : Solving c α} (h : Follows A H x) {st st' : SolveState c} {a : α}
    (hexec : exec x st = (.ok a, st')) : ReflTransGen A st st' := by
  have hpath := h st
  rw [hexec] at hpath
  exact hpath

theorem Follows.error {x : Solving c α} (h : Follows A H x) {st st' : SolveState c}
    {stop : Stop SolverError} (hexec : exec x st = (.error stop, st')) :
    ∃ mid, ReflTransGen A st mid ∧ (st' = mid ∨ H mid st') := by
  have hpath := h st
  rw [hexec] at hpath
  exact hpath

/-- A step that only reads leaves the state as it is. -/
theorem follows_of_same {x : Solving c α} (h : ∀ st, (exec x st).2 = st) : Follows A H x := by
  intro st
  have hst := h st
  cases hexec : exec x st with
  | mk r st' =>
    rw [hexec] at hst
    subst hst
    cases r with
    | ok a => exact .refl
    | error stop => exact ⟨st', .refl, .inl rfl⟩

theorem follows_pure (a : α) : Follows A H (pure a : Solving c α) := follows_of_same fun _ => rfl

theorem follows_read (f : Solution c → Except Fault α) : Follows A H (read f) :=
  follows_of_same fun _ => rfl

theorem follows_fail (e : SolverError) : Follows A H (fail e : Solving c α) :=
  follows_of_same fun _ => rfl

/-- Solving a wire is one action, or a fault that leaves the state as it is. -/
theorem path_set {w : WireId} {x : Scalar c} {st : SolveState c}
    (h : ∀ solution, st.solution.set w x = .ok solution → A st { st with solution }) :
    Path A H st (exec (set w x) st) := by
  cases hset : st.solution.set w x with
  | ok solution =>
    rw [exec_set_of_ok hset]
    exact .single (h solution hset)
  | error f =>
    rw [exec_set_of_error hset]
    exact ⟨st, .refl, .inl rfl⟩

theorem follows_set {w : WireId} {x : Scalar c}
    (h : ∀ st solution, st.solution.set w x = .ok solution → A st { st with solution }) :
    Follows A H (set w x) :=
  fun st => path_set (h st)

theorem follows_report {e : Event} (h : ∀ st, A st { st with trace := st.trace.push e }) :
    Follows A H (report e : Solving c Unit) :=
  fun st => .single (h st)

/-- A sequence of steps is a path if its parts are, each from where the one before
    it ended. -/
theorem path_bind {x : Solving c α} {f : α → Solving c β} {st : SolveState c}
    (hx : Path A H st (exec x st))
    (hf : ∀ a mid, exec x st = (.ok a, mid) → Path A H mid (exec (f a) mid)) :
    Path A H st (exec (x >>= f) st) := by
  rw [exec_bind]
  cases hexec : exec x st with
  | mk r mid =>
    rw [hexec] at hx
    cases r with
    | error stop => exact hx
    | ok a =>
      have hrest := hf a mid hexec
      show Path A H st (exec (f a) mid)
      -- the second part starts in `mid`, so its actions come after those of the first
      cases hexec' : exec (f a) mid with
      | mk r' st' =>
        rw [hexec'] at hrest
        cases r' with
        | ok b => exact hx.trans hrest
        | error stop =>
          obtain ⟨mid', hmid, hlast⟩ := hrest
          exact ⟨mid', hx.trans hmid, hlast⟩

theorem follows_bind {x : Solving c α} {f : α → Solving c β} (hx : Follows A H x)
    (hf : ∀ a, Follows A H (f a)) : Follows A H (x >>= f) :=
  fun st => path_bind (hx st) fun a mid _ => hf a mid

theorem Follows.mono {A' H' : SolveState c → SolveState c → Prop} {x : Solving c α}
    (h : Follows A H x) (hA : ∀ st st', A st st' → A' st st')
    (hH : ∀ st st', H st st' → H' st st') : Follows A' H' x := by
  intro st
  have hpath := h st
  cases hexec : exec x st with
  | mk r st' =>
    rw [hexec] at hpath
    cases r with
    | ok a => exact ReflTransGen.mono hA _ _ hpath
    | error stop =>
      obtain ⟨mid, hmid, hlast⟩ := hpath
      exact ⟨mid, ReflTransGen.mono hA _ _ hmid, hlast.imp_right (hH mid st')⟩

/-- What every action preserves holds after any number of them. -/
theorem preserved {I : SolveState c → Prop} (hstep : ∀ st st', A st st' → I st → I st')
    {st st' : SolveState c} (h : ReflTransGen A st st') (hst : I st) : I st' := by
  induction h with
  | refl => exact hst
  | tail _ hact ih => exact hstep _ _ hact ih

end CircuitWitness.Solving
