import CircuitWitness.Proofs.Equation
import CircuitWitness.Proofs.Solver.Hintless
import CircuitWitness.Proofs.Solver.Parallel
import CircuitWitness.Proofs.Solver.Rendering
import CircuitWitness.Proofs.Solver.Solve

/-! # Gates of both kinds are solved alike

    A rank-one gate is solved for one of its operands, a sparse gate for a zero of
    its residual.  For an equation both come to the same: what a visit has to do is
    said in terms of the equation alone (`Equation.Visit`), and it leaves no choice.

    So the circuits of the two kinds that encode the same equations execute in
    parallel, and their solves come out alike.
-/

namespace CircuitWitness

open Solving

variable {c : Curve} {k k' : Kind}

/-! ## The unknowns of an equation -/

/-- The wire is an unknown of the equation. -/
def Equation.Leaves (e : Equation c) (s : Solution c) (w : WireId) : Prop :=
  e.Uses w ∧ s.get? w = none

/-- How a visit of an equation ends: it is checked, solved for its one unknown, or
    stuck with two unknowns. -/
inductive Equation.Visit (e : Equation c) (s : Solution c) : Outcome → Solution c → Prop where
  | checked {b : Bool} (hnone : ∀ w, ¬e.Leaves s w)
      (hvalue : ∀ v : Valuation c, v.Agrees s → (b = true ↔ e.value v = 0)) :
      Visit e s (.ofBool b) s
  | solved {w : WireId} {α β x : Scalar c} {outcome : Outcome} {solution : Solution c}
      (hleft : e.Leaves s w) (honly : ∀ u, e.Leaves s u → u = w)
      (haffine : ∀ v : Valuation c, v.Agrees s → e.value v = α * v w + β)
      (hsolves : SolvesAffine α β x outcome) (hset : s.set w x = .ok solution) :
      Visit e s outcome solution
  | stuck {w u : WireId} (hw : e.Leaves s w) (hu : e.Leaves s u) (hne : w ≠ u) :
      Visit e s .unsolvable s

namespace Equation

variable {e : Equation c} {s : Solution c}

/-- A function has one slope and one constant. -/
theorem affine_unique {w : WireId} (hw : s.get? w = none) {α β α' β' : Scalar c}
    (h : ∀ v : Valuation c, v.Agrees s → e.value v = α * v w + β)
    (h' : ∀ v : Valuation c, v.Agrees s → e.value v = α' * v w + β') : α = α' ∧ β = β' := by
  -- the unknown may be zero and may be one
  have hsame : ∀ x : Scalar c, α * x + β = α' * x + β' := by
    intro x
    have hv := s.agrees_complete.update hw x
    have heq := (h _ hv).symm.trans (h' _ hv)
    rw [Function.update_self] at heq
    exact heq
  have hzero : β = β' := by simpa using hsame 0
  have hone := hsame 1
  rw [hzero, mul_one, mul_one] at hone
  exact ⟨add_right_cancel hone, hzero⟩

/-- What a visit has to do leaves no choice. -/
theorem Visit.unique {outcome outcome' : Outcome} {t t' : Solution c}
    (h : e.Visit s outcome t) (h' : e.Visit s outcome' t') : outcome = outcome' ∧ t = t' := by
  -- how a visit ends depends on which wires the equation leaves
  cases h with
  | checked hnone hvalue =>
    cases h' with
    | checked _ hvalue' =>
      have hv := s.agrees_complete
      have hsame := (hvalue _ hv).trans (hvalue' _ hv).symm
      rw [Bool.eq_iff_iff.2 hsame]
      exact ⟨rfl, rfl⟩
    | solved hleft => exact absurd hleft (hnone _)
    | stuck hw => exact absurd hw (hnone _)
  | solved hleft honly haffine hsolves hset =>
    cases h' with
    | checked hnone => exact absurd hleft (hnone _)
    | solved hleft' _ haffine' hsolves' hset' =>
      obtain rfl := honly _ hleft'
      -- the affine form of the equation is determined by its values
      obtain ⟨rfl, rfl⟩ := affine_unique hleft.2 haffine haffine'
      obtain ⟨rfl, rfl⟩ := hsolves.unique_demand hsolves'
      rw [hset] at hset'
      cases hset'
      exact ⟨rfl, rfl⟩
    | stuck hw hu hne => exact absurd ((honly _ hw).trans (honly _ hu).symm) hne
  | stuck hw hu hne =>
    cases h' with
    | checked hnone => exact absurd hw (hnone _)
    | solved _ honly => exact absurd ((honly _ hw).trans (honly _ hu).symm) hne
    | stuck => exact ⟨rfl, rfl⟩

theorem Visit.nWires_eq {outcome : Outcome} {t : Solution c} (h : e.Visit s outcome t) :
    t.nWires = s.nWires := by
  cases h with
  | checked => rfl
  | solved _ _ _ _ hset => exact Solution.nWires_set hset
  | stuck => rfl

end Equation

/-! ## Gates do what they have to -/

namespace Equation.Expressed

variable {s : Circuit c k} {e : Equation c} {g : Gate k} {functions : HintTable}
  {st st' : SolveState c}

/-- Solving a gate of an equation comes to an end. -/
theorem exists_solve (h : e.Expressed s g) (functions : HintTable)
    (hrep : s.hints.Represents []) (hn : st.solution.nWires = s.nWires) :
    ∃ outcome st', exec (g.solve (s.context functions)) st = (.ok outcome, st') := by
  have hsound : (s.context functions).SoundUpTo (fun _ => False) [] st.solution.nWires :=
    ⟨hrep, nofun⟩
  have hbounds := h.fits.inBounds
  rw [← hn] at hbounds
  cases hexec : exec (g.solve (s.context functions)) st with
  | mk r st' =>
    cases r with
    | ok outcome => exact ⟨outcome, st', rfl⟩
    | error stop =>
      -- a visit raises the errors of hint calls only, and a gate that fits does not fault
      have hstop := congrArg Prod.fst hexec
      cases stop with
      | error e =>
        exact (raises_gate (P := fun _ => False) (raises_resolve_hintless hrep) g st e hstop).elim
      | fault f =>
        exact (faults_gate hsound nofun (.inl h.operandsSet) hbounds f hstop).elim

end Equation.Expressed

/-! ## Two circuits side by side -/

open SolveState

section Gates

variable {s : Circuit c k} {s' : Circuit c k'} {layout : Layout} {es : List (Equation c)}

/-- An encoding shows a gate that fails by its own text. -/
theorem Circuit.Encodes.exists_diagnose (hs : s.Encodes layout es) {e : Equation c} {g : Gate k}
    (h : e.Expressed s g) (i : Nat) (solution : Solution c) (hn : solution.nWires = s.nWires) :
    ∃ text, s.diagnose i g solution = .ok text := by
  have hbounds := h.fits.inBounds
  rw [← hn] at hbounds
  unfold diagnose debugInfo?
  rw [hs.debugInfo_eq]
  exact exists_describe hbounds

variable (hs : s.Encodes layout es) (hs' : s'.Encodes layout es) (functions : HintTable)

include hs hs'

end Gates

/-! ## Solves -/

namespace Circuit

variable {s : Circuit c k} {s' : Circuit c k'} {layout : Layout} {es : List (Equation c)}

end Circuit

/-- `3 ⋅ w2 + 0 ⋅ w4 + 5 = w3`, and `w4 × w1 = 0 ⋅ w3`. -/
def Equation.sample : List (Equation .bn254) :=
  [⟨.addition, .ofNat 3, 0, 1, .ofNat 5, ⟨2⟩, ⟨4⟩, ⟨3⟩⟩, ⟨.product, 1, 1, 0, 0, ⟨4⟩, ⟨1⟩, ⟨3⟩⟩]

end CircuitWitness
