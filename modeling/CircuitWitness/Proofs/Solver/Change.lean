import CircuitWitness.Proofs.Solver.Run

/-! # What a solve can touch

    Whatever a solve does, it does by small changes of its state (`Change`): an
    unsolved wire is solved, scratch integers are lent or given back, or an event
    of the run is reported.  Nothing has to be known of the circuit for that; its
    hint calls may share wires or list one twice, and a step may stop anywhere.
    So what no change can undo holds after any step.
-/

namespace CircuitWitness

open Solving Relation

variable {c : Curve} {k : Kind} {α : Type}

/-- The event is reported in the course of a run, and not before or after it. -/
def Event.OfRun : Event → Prop
  | borrowed _ => True
  | called _ => True
  | unsatisfied .. => True
  | _ => False

/-- One change of the state of a solve. -/
inductive Change (st : SolveState c) : SolveState c → Prop where
  /-- An unsolved wire is solved. -/
  | solved {w : WireId} {x : Scalar c} {solution : Solution c}
      (hset : st.solution.set w x = .ok solution) : Change st { st with solution }
  /-- Scratch integers are lent or given back. -/
  | pooled (pool : ScratchPool) : Change st { st with pool }
  | reported {e : Event} (he : e.OfRun) : Change st { st with trace := st.trace.push e }

/-! ## What changes keep -/

section Kept

variable {st st' : SolveState c}

theorem Change.extends (h : Change st st') : st.solution.Extends st'.solution := by
  cases h with
  | solved hset => exact Solution.extends_of_set hset
  | pooled pool => exact .refl _
  | reported he => exact .refl _

theorem Change.counted (h : Change st st') (hst : st.solution.Counted) :
    st'.solution.Counted := by
  cases h with
  | solved hset => exact Solution.counted_of_set hset hst
  | pooled pool => exact hst
  | reported he => exact hst

theorem Change.untouched (h : Change st st') (hst : st.solution.Untouched) :
    st'.solution.Untouched := by
  cases h with
  | solved hset => exact Solution.untouched_of_set hset hst
  | pooled pool => exact hst
  | reported he => exact hst

theorem extends_of_changes (h : ReflTransGen Change st st') :
    st.solution.Extends st'.solution := by
  induction h with
  | refl => exact .refl _
  | tail _ hchange ih => exact ih.trans hchange.extends

theorem counted_of_changes (h : ReflTransGen Change st st') (hst : st.solution.Counted) :
    st'.solution.Counted :=
  preserved (I := fun st => st.solution.Counted) (fun _ _ hchange => hchange.counted) h hst

theorem untouched_of_changes (h : ReflTransGen Change st st') (hst : st.solution.Untouched) :
    st'.solution.Untouched :=
  preserved (I := fun st => st.solution.Untouched) (fun _ _ hchange => hchange.untouched) h hst

end Kept

/-! ## Steps are changes -/

/-- A step that follows changes has made some when it ends, however it ends. -/
theorem changes_of_exec {x : Solving c α} (h : Follows Change Change x) {st st' : SolveState c}
    {r : Except (Stop SolverError) α} (hexec : exec x st = (r, st')) :
    ReflTransGen Change st st' := by
  cases r with
  | ok a => exact h.ok hexec
  | error stop =>
    obtain ⟨mid, hchanges, rfl | hlast⟩ := h.error hexec
    · exact hchanges
    · exact hchanges.tail hlast

theorem follows_of_changes {x : Solving c α}
    (h : ∀ st r st', exec x st = (r, st') → ReflTransGen Change st st') :
    Follows Change Change x := by
  intro st
  cases hexec : exec x st with
  | mk r st' =>
    have hchanges := h st r st' hexec
    cases r with
    | ok a => exact hchanges
    | error stop => exact ⟨st', hchanges, .inl rfl⟩

theorem changes_set (w : WireId) (x : Scalar c) :
    Follows Change Change (Solving.set w x : Solving c Unit) :=
  follows_set fun _ _ hset => .solved hset

/-- Wires are solved one by one, up to the first that cannot be. -/
theorem changes_setAll (st : SolveState c) (l : List (WireId × Scalar c)) :
    ReflTransGen Change st { st with solution := (st.solution.setAll l).2 } := by
  induction l generalizing st with
  | nil => exact .refl
  | cons p rest ih =>
    obtain ⟨w, x⟩ := p
    rw [Solution.setAll]
    -- solving stops at the first wire that cannot be set
    cases hset : st.solution.set w x with
    | error f => exact .refl
    | ok solution =>
      have hrest := ih { st with solution }
      exact .head (.solved hset) hrest

/-! ## Hint calls -/

theorem changes_afterRefusal (st : SolveState c) (n : Nat) (xs : List Nat) :
    ReflTransGen Change st (st.afterRefusal n xs) := by
  have hborrow : Change st { st with trace := st.trace.push (.borrowed n) } := .reported trivial
  exact .tail (.single hborrow) (.pooled _)

/-- A call that ran has reported itself and solved wires, as far as it came. -/
theorem changes_afterRun (st : SolveState c) (run : Invocation) (outs : List Nat)
    (l : List (WireId × Scalar c)) :
    ReflTransGen Change st (st.afterRun run outs (st.solution.setAll l).2) := by
  let borrowed := { st with
    trace := st.trace.push (.borrowed (run.function.nIntegers run.call)) }
  have hborrow : Change st borrowed := .reported trivial
  have hcalled : Change borrowed { borrowed with trace := borrowed.trace.push (.called run) } :=
    .reported trivial
  have hset := changes_setAll (st.afterRun run outs st.solution) l
  exact .head hborrow (.head hcalled (.head (.pooled _) hset))

theorem CallEnds.changes {ctx : Context c} {w : WireId} {call : HintCall} {h : HintFunction}
    {st st' : SolveState c} {r : Except (Stop SolverError) Unit}
    (hends : CallEnds ctx w call h st r st') : ReflTransGen Change st st' := by
  -- whatever the function leaves behind, wires are set from the front of the list
  have hset : ∀ {run outs l r solution}, st.solution.setAll l = (r, solution) →
      ReflTransGen Change st (st.afterRun run outs solution) := by
    intro run outs l r solution hset
    have hchanges := changes_afterRun st run outs l
    rw [hset] at hchanges
    exact hchanges
  cases hends with
  | refused hread => exact changes_afterRefusal st _ _
  | failed hread hcall => exact changes_afterRun st _ _ []
  | broke hread hcall hsolve => exact hset hsolve
  | ran hread hcall hsolve => exact hset hsolve

theorem changes_solveWithHint (ctx : Context c) (w : WireId) (call : HintCall) :
    Follows Change Change (solveWithHint ctx w call) := by
  apply follows_of_changes
  intro st r st' hexec
  cases requested_of_exec hexec with
  | absent hfault => exact .refl
  | answered hlt hsome => exact .refl
  | rejected hhandler => exact .refl
  | called hlt hnone hhandler hends => exact hends.changes

theorem changes_resolve (ctx : Context c) (t : Term) : Follows Change Change (resolve ctx t) :=
  follows_resolve_of_calls (fun w call _ => changes_solveWithHint ctx w call) t

/-! ## Gates and runs -/

theorem changes_gate (ctx : Context c) (g : Gate k) : Follows Change Change (g.solve ctx) :=
  follows_gate (changes_resolve ctx) changes_set g

end CircuitWitness
