import CircuitWitness.Proofs.Solver.Visit

/-! # Solving without hint calls

    Where no call produces a wire a visit of a gate leaves the solution as it is
    until it solves its unknown.  A gate in bounds is then checked or solved, or it
    has two open places that clash: it is stuck for no other reason.
-/

namespace CircuitWitness

open Solving Relation

variable {c : Curve} {k : Kind} {π : Type}

section Hintless

variable {ctx : Context c} {st st' : SolveState c}

theorem producer?_eq_none (hrep : ctx.hints.Represents []) (w : WireId) :
    ctx.hints.producer? w = none :=
  hrep.producer?_eq_none_iff.2 nofun

theorem raises_resolve_hintless {P : SolverError → Prop} (hrep : ctx.hints.Represents [])
    (t : Term) : Raises P (resolve ctx t) := by
  refine raises_iff.2 (stops_resolve ?_)
  intro call hcall
  rw [producer?_eq_none hrep] at hcall
  cases hcall

/-- A sparse gate does not demand a value if it is quadratic in the unknown. -/
theorem SparseGate.open_of_isolate_eq_none {table : CoefficientTable c} {s : Solution c}
    {g : SparseGate} {w : WireId} (h : g.isolate table s w = .ok none) :
    s.Open g.m₀ ∧ s.Open g.m₁ := by
  -- a term that holds the unknown is open, and a square has two
  have hopen : ∀ t, holdsUnknown s w t = .ok true → s.Open t := by
    intro t ht
    rcases holdsUnknown_eq_ok_iff.1 ht with ⟨-, habs⟩ | ⟨hop, -⟩
    · cases habs
    · exact hop
  unfold isolate at h
  simp only [bind_eq_ok_iff] at h
  obtain ⟨b₀, h₀, b₁, h₁, h⟩ := h
  cases b₀ with
  | false =>
    simp only [Bool.false_and, Bool.false_eq_true, if_false, bind_eq_ok_iff, pure_eq_ok_iff] at h
    obtain ⟨_, _, _, _, habs⟩ := h
    cases habs
  | true =>
    cases b₁ with
    | false =>
      simp only [Bool.and_false, Bool.false_eq_true, if_false, bind_eq_ok_iff,
        pure_eq_ok_iff] at h
      obtain ⟨_, _, _, _, habs⟩ := h
      cases habs
    | true => exact ⟨hopen _ h₀, hopen _ h₁⟩

end Hintless

end CircuitWitness
