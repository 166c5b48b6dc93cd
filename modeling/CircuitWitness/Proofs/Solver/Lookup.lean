import CircuitWitness.Proofs.Solver.Solve

/-! # A run depends on what it looks up

    Hint functions and hint calls are kept in tables, and a run uses a table for
    nothing but looking things up: the function of a call, the call behind a wire,
    and the calls that are pending after the gates.  Two circuits that differ in
    how their hint map is laid out, solved with two tables of functions, make the
    same steps if they find the same at every look-up (`Circuit.run_congr`).
-/

namespace CircuitWitness

open Solving

variable {c : Curve} {k : Kind}

/-- The contexts find the same coefficients, the same call behind every wire, and the
    same function for every call. -/
structure Context.SameLookups (ctx ctx' : Context c) : Prop where
  table_eq : ctx.table = ctx'.table
  producer?_eq : ∀ w, ctx.hints.producer? w = ctx'.hints.producer? w
  find?_eq : ∀ e ∈ ctx.hints.entries,
    ctx.functions.find? e.2.id = ctx'.functions.find? e.2.id

/-! ## Steps -/

theorem HintTable.handler_congr {t t' : HintTable} {call : HintCall}
    (h : t.find? call.id = t'.find? call.id) (w : WireId) :
    t.handler w call = t'.handler w call := by
  unfold handler
  rw [h]

namespace Context.SameLookups

variable {ctx ctx' : Context c}

theorem runCall_eq (h : ctx.SameLookups ctx') (w : WireId) (call : HintCall)
    (function : HintFunction) : runCall ctx w call function = runCall ctx' w call function := by
  unfold runCall
  rw [h.table_eq]

theorem solveWithHint_eq (h : ctx.SameLookups ctx') {e : WireId × HintCall}
    (he : e ∈ ctx.hints.entries) (w : WireId) :
    solveWithHint ctx w e.2 = solveWithHint ctx' w e.2 := by
  unfold solveWithHint
  rw [HintTable.handler_congr (h.find?_eq e he) w]
  simp only [h.runCall_eq]

theorem resolve_eq (h : ctx.SameLookups ctx') (t : Term) : resolve ctx t = resolve ctx' t := by
  unfold resolve
  rw [← h.producer?_eq]
  cases hproducer : ctx.hints.producer? t.wire with
  | none => rfl
  | some call =>
    -- what is found behind a wire is an entry of the map
    have hentry : (t.wire, call) ∈ ctx.hints.entries := Assoc.mem_of_lookup hproducer
    simp only [h.solveWithHint_eq hentry]

theorem seekUnknown_eq {π : Type} (h : ctx.SameLookups ctx') (term : π → Term)
    (clash : π → π → Bool) (found : Option π) (places : List π) :
    seekUnknown ctx term clash found places = seekUnknown ctx' term clash found places := by
  induction places generalizing found with
  | nil => rfl
  | cons p rest ih => simp only [seekUnknown_cons, h.resolve_eq, ih]

theorem gate_eq (h : ctx.SameLookups ctx') (g : Gate k) : g.solve ctx = g.solve ctx' := by
  cases g with
  | rankOne g =>
    show g.solve ctx = g.solve ctx'
    unfold RankOne.solve
    rw [h.seekUnknown_eq, h.table_eq]
  | sparse g =>
    show g.solve ctx = g.solve ctx'
    unfold SparseGate.solve
    rw [h.seekUnknown_eq, h.table_eq]

theorem runPending_eq (h : ctx.SameLookups ctx') {pending : List (WireId × HintCall)}
    (hmem : ∀ e ∈ pending, e ∈ ctx.hints.entries) :
    Circuit.runPending ctx pending = Circuit.runPending ctx' pending := by
  induction pending with
  | nil => rfl
  | cons e rest ih =>
    have hrest := ih fun u hu => hmem u (List.mem_cons_of_mem _ hu)
    rw [Circuit.runPending, Circuit.runPending, hrest,
      h.solveWithHint_eq (hmem e List.mem_cons_self)]

end Context.SameLookups

/-! ## Runs -/

namespace Circuit

/-- The circuit with another hint map. -/
def withHints (s : Circuit c k) (m : HintMap) : Circuit c k := { s with hints := m }

variable {s : Circuit c k} {m : HintMap} {functions functions' : HintTable}

theorem visitGates_congr
    (h : (s.context functions).SameLookups ((s.withHints m).context functions')) (force : Bool)
    (index : Nat) (gates : List (Gate k)) (failures : Failures) :
    s.visitGates functions force index gates failures =
      (s.withHints m).visitGates functions' force index gates failures := by
  induction gates generalizing index failures with
  | nil => rfl
  | cons g rest ih =>
    have hgate : s.visitGate functions force index g failures =
        (s.withHints m).visitGate functions' force index g failures := by
      unfold visitGate
      rw [h.gate_eq]
      rfl
    simp only [visitGates, hgate, ih]

/-- Runs that find the same at every look-up are the same. -/
theorem run_congr (h : (s.context functions).SameLookups ((s.withHints m).context functions'))
    (hpending : ∀ solution, s.pendingWires solution = (s.withHints m).pendingWires solution)
    (force : Bool) : s.run functions force = (s.withHints m).run functions' force := by
  have hread : s.pendingWires = (s.withHints m).pendingWires := funext hpending
  funext start
  show exec (s.run functions force) start = exec ((s.withHints m).run functions' force) start
  unfold run
  rw [visitGates_congr h, ← hread]
  apply exec_bind_congr
  intro failures mid _
  apply exec_bind_congr
  intro pending mid' hexec
  -- the pending calls are entries of the map
  obtain ⟨hok, -⟩ := exec_read_eq_ok_iff.1 hexec
  rw [h.runPending_eq fun e he => ((mem_pendingWires hok).1 he).1]

theorem solveFrom_congr {options : SolverOptions}
    (h : s.run functions options.force = (s.withHints m).run functions' options.force)
    (start : SolveState c) :
    s.solveFrom functions options start = (s.withHints m).solveFrom functions' options start := by
  unfold solveFrom
  rw [h]
  rfl

end Circuit

end CircuitWitness
