import CircuitWitness.Proofs.Circuit.Interning
import CircuitWitness.Proofs.Determination
import CircuitWitness.Proofs.Placement
import CircuitWitness.Proofs.Requests
import CircuitWitness.Proofs.Safety

/-! # Circuits that their hint calls serve

    If every wire is solved from the start or produced by a call, and the calls read
    nothing but what is solved from the start, then the calls are what they are under
    one valuation of all wires, in whatever order they are made (`Context.Serves`).
    No request for such a call can stop a solve, and no gate has an unknown: it is
    checked.  So a solve ends with that valuation if all gates hold under it.
-/

namespace CircuitWitness

open Solving Relation

variable {c : Curve} {k : Kind}

/-- A function takes the call, and makes of its inputs under `v` what `v` has on its wires. -/
def HintCall.Gives (table : CoefficientTable c) (functions : HintTable) (v : Valuation c)
    (call : HintCall) : Prop :=
  ∃ h outs, functions.Takes call h ∧
    h.call c (inputValues table v call.inputs) (h.zeros call) = (outs, .ok ()) ∧
    outs.map Scalar.ofNat = call.wires.map v

/-- The wires that are solved from the start and those of the calls are all wires.  The calls
    read what is solved from the start, and they give their wires what `v` has on them. -/
structure Context.Serves (ctx : Context c) (calls : List HintCall) (start : Solution c)
    (v : Valuation c) : Prop where
  represents : ctx.hints.Represents calls
  covers : ∀ w : WireId, w.index < start.nWires →
    (start.get? w).isSome ∨ ∃ call ∈ calls, w ∈ call.wires
  inRange : ∀ call ∈ calls, ∀ w ∈ call.wires, w.index < start.nWires
  reads : ∀ call ∈ ctx.hints.calls, ∀ lc ∈ call.inputs, start.ReadableSum ctx.table lc
  gives : ∀ call ∈ ctx.hints.calls, call.Gives ctx.table ctx.functions v

/-- The state has come from the start and has solved nothing but what `v` says, and every call
    is done or has not begun. -/
structure SolveState.OnTrack (calls : List HintCall) (start : Solution c) (v : Valuation c)
    (st : SolveState c) : Prop where
  extends_start : start.Extends st.solution
  agrees : v.Agrees st.solution
  unbegun : Unbegun calls st.solution

section Serves

variable {ctx : Context c} {calls : List HintCall} {start : Solution c} {v : Valuation c}
  {st : SolveState c}

/-! ## Requests -/

theorem Solution.ReadableSum.of_extends {table : CoefficientTable c} {s t : Solution c}
    {lc : LinearCombination} (h : s.ReadableSum table lc) (hext : s.Extends t) :
    t.ReadableSum table lc :=
  ⟨h.1, fun u hu => (h.2 u hu).of_extends hext⟩

/-- Every valuation that agrees reads the same integers from inputs that can be read. -/
theorem inputValues_eq {table : CoefficientTable c} {s : Solution c} {v v' : Valuation c}
    (hv : v.Agrees s) (hv' : v'.Agrees s) {inputs : List LinearCombination}
    (hreads : ∀ lc ∈ inputs, s.ReadableSum table lc) :
    inputValues table v inputs = inputValues table v' inputs := by
  have hread : s.readInputs table ⟨0⟩ inputs = (.ok (), inputValues table v' inputs) :=
    (Solution.readInputs_eq_ok_iff hv').2 ⟨hreads, rfl⟩
  exact ((Solution.readInputs_eq_ok_iff hv).1 hread).2

theorem Valuation.Agrees.setAll {s t : Solution c} (hv : v.Agrees s) {wires : List WireId}
    (hset : s.setAll (wires.zip (wires.map v)) = (.ok (), t)) : v.Agrees t := by
  intro w x hx
  rw [Solution.get?_setAll hset] at hx
  cases hlookup : (wires.zip (wires.map v)).lookup w with
  | none =>
    rw [hlookup] at hx
    exact hv w x hx
  | some y =>
    -- each of the wires stands beside what `v` says of it
    have hzip := Assoc.mem_of_lookup hlookup
    rw [hlookup] at hx
    cases hx
    rw [← List.map_prod_left_eq_zip] at hzip
    obtain ⟨_, -, heq⟩ := List.mem_map.1 hzip
    cases heq
    rfl

/-- A request for a wire of a call solves the wires of the call as `v` has them. -/
theorem Context.Serves.ends_solveWithHint (h : ctx.Serves calls start v) {w : WireId}
    {call : HintCall} (hmem : (w, call) ∈ ctx.hints.entries) (hst : st.OnTrack calls start v) :
    Ends (fun _ => SolveState.OnTrack calls start v) (solveWithHint ctx w call) st := by
  obtain ⟨hcall, hw⟩ := h.represents.mem_entries_iff.1 hmem
  cases hget : st.solution.get? w with
  | some x => exact ⟨(), st, exec_solveWithHint_of_solved (by rw [hget]; rfl), hst⟩
  | none =>
    -- everything that the call asks for is there, so that it is answered by a run
    have hlisted := h.represents.mem_calls_iff.2 ⟨hcall, List.ne_nil_of_mem hw⟩
    have hreads : ∀ lc ∈ call.inputs, st.solution.ReadableSum ctx.table lc := fun lc hlc =>
      (h.reads call hlisted lc hlc).of_extends hst.extends_start
    obtain ⟨fn, outs, htakes, hrun, houts⟩ := h.gives call hlisted
    have hanswer : Answer ctx w call st.solution (.ok ())
        [⟨fn, w, call, inputValues ctx.table v call.inputs, fn.zeros call⟩]
        (call.wires.zip (outs.map Scalar.ofNat)) :=
      .ran htakes hreads (inputValues_eq st.solution.agrees_complete hst.agrees hreads) hrun
    have hb : ∀ lc ∈ call.inputs, ∀ t ∈ lc.terms, t.InBounds ctx.table st.solution.nWires :=
      fun lc hlc t ht => ((hreads lc hlc).2 t ht).inBounds
    obtain ⟨st', hexec, -, hset⟩ := exec_solveWithHint (hst.unbegun call hcall w hw hget) hw
      ((answer_iff hb).1 hanswer)
    have hruns := (follows_solveWithHint hmem).ok hexec
    refine ⟨(), st', hexec, hst.extends_start.trans (extends_of_runs hruns), ?_, ?_⟩
    · -- the function gives its wires the values that they are meant to have
      rw [houts] at hset
      exact hst.agrees.setAll hset
    · exact preserved (I := fun st => Unbegun calls st.solution)
        (fun _ _ hran => hran.unbegun h.represents) hruns hst.unbegun

/-- An unsolved wire has a call that produces it. -/
theorem Context.Serves.exists_producer (h : ctx.Serves calls start v)
    (hst : st.OnTrack calls start v) {w : WireId} (hlt : w.index < st.solution.nWires)
    (hunsolved : ¬(st.solution.get? w).isSome) : ∃ call, ctx.hints.producer? w = some call := by
  rw [hst.extends_start.nWires_eq] at hlt
  rcases h.covers w hlt with hsome | ⟨call, hcall, hw⟩
  · exact absurd (hst.extends_start.isSome hsome) hunsolved
  · exact ⟨call, h.represents.producer?_eq_some_iff.2 ⟨hcall, hw⟩⟩

/-- After the request for its wire a term can be computed. -/
theorem Context.Serves.ends_resolve (h : ctx.Serves calls start v) {t : Term}
    (ht : t.InRange start.nWires) (hst : st.OnTrack calls start v) :
    Ends (fun _ mid => SolveState.OnTrack calls start v mid ∧ mid.solution.Known t)
      (resolve ctx t) st := by
  unfold resolve
  split
  · rename_i hvirt
    exact ends_pure ⟨hst, .inl hvirt⟩
  · rename_i hreal
    have hlt := ht (by simpa using hreal)
    rw [← hst.extends_start.nWires_eq] at hlt
    refine ends_read (Solution.isSolved_eq_ok_iff.2 ⟨hlt, rfl⟩) ?_
    split
    · rename_i hsolved
      exact ends_pure ⟨hst, .inr (.inr hsolved)⟩
    · rename_i hunsolved
      -- an unsolved wire past the inputs is the output of a call, which is made now
      obtain ⟨call, hprod⟩ := h.exists_producer hst hlt hunsolved
      rw [hprod]
      have hmem := Assoc.mem_of_lookup hprod
      obtain ⟨_, mid, hexec, hmid⟩ := h.ends_solveWithHint hmem hst
      have hsome := (solved_of_solveWithHint h.represents hmem hexec).2
      exact ⟨(), mid, hexec, hmid, .inr (.inr hsome)⟩

/-- A search finds no unknown. -/
theorem Context.Serves.ends_seekUnknown (h : ctx.Serves calls start v) {π : Type} (f : π → Term)
    (clash : π → π → Bool) {places : List π}
    (hrange : ∀ p ∈ places, (f p).InRange start.nWires) (hst : st.OnTrack calls start v) :
    Ends (fun u mid => u = .none ∧ SolveState.OnTrack calls start v mid ∧
      ∀ p ∈ places, mid.solution.Known (f p)) (seekUnknown ctx f clash none places) st := by
  induction places generalizing st with
  | nil => exact ends_pure ⟨rfl, hst, by simp⟩
  | cons p rest ih =>
    obtain ⟨hp, hrest⟩ := List.forall_mem_cons.1 hrange
    rw [seekUnknown_cons]
    refine ends_bind (h.ends_resolve hp hst) ?_
    rintro _ mid ⟨hmid, hknown⟩
    refine ends_read (Solution.isKnown_true_iff.2 hknown) ?_
    -- nothing is found at this place, and it stays known while the rest is searched
    obtain ⟨_, mid', hseek, rfl, hmid', hrestknown⟩ := ih hrest hmid
    have hkept := hknown.of_extends (extends_of_seekUnknown hseek)
    exact ⟨.none, mid', hseek, rfl, hmid', List.forall_mem_cons.2 ⟨hkept, hrestknown⟩⟩

/-! ## Gates -/

/-- All operands of the gate are set, it is in bounds, and it holds under `v`. -/
structure Gate.Met (table : CoefficientTable c) (n : Nat) (v : Valuation c) (g : Gate k) :
    Prop where
  operandsSet : g.OperandsSet
  inBounds : g.InBounds table n
  denote_eq_zero : g.denote table v = 0

theorem Context.Serves.ends_rankOne (h : ctx.Serves calls start v) {g : RankOne}
    (hg : (Gate.rankOne g).Met ctx.table start.nWires v) (hst : st.OnTrack calls start v) :
    Ends (fun outcome mid => outcome = .satisfied ∧ SolveState.OnTrack calls start v mid)
      (g.solve ctx) st := by
  have hrange : ∀ p ∈ g.places, p.term.InRange start.nWires := fun p hp =>
    (hg.inBounds.1 p.term (RankOne.term_mem_terms hp)).2
  refine ends_read (RankOne.assertSet_eq_ok hg.operandsSet) ?_
  refine ends_bind (h.ends_seekUnknown _ _ hrange hst) ?_
  rintro _ mid ⟨rfl, hmid, hknown⟩
  have hready := fun t ht => And.intro (hg.inBounds.1 t ht).1 (RankOne.forall_mem_terms hknown t ht)
  have hholds := (RankOne.holds_eq_ok_iff hmid.agrees).2
    ⟨hready, decide_eq_true hg.denote_eq_zero⟩
  exact ends_read hholds (ends_pure ⟨rfl, hmid⟩)

theorem Context.Serves.ends_sparse (h : ctx.Serves calls start v) {g : SparseGate}
    (hg : (Gate.sparse g).Met ctx.table start.nWires v) (hst : st.OnTrack calls start v) :
    Ends (fun outcome mid => outcome = .satisfied ∧ SolveState.OnTrack calls start v mid)
      (g.solve ctx) st := by
  have hrange : ∀ t ∈ g.terms, t.InRange start.nWires := fun t ht => (hg.inBounds.1 t ht).2
  refine ends_bind (h.ends_seekUnknown _ _ hrange hst) ?_
  rintro _ mid ⟨rfl, hmid, hknown⟩
  have hready := fun t ht => And.intro (hg.inBounds.1 t ht).1 (hknown t ht)
  have hk := hg.inBounds.2 g.k (by simp [Gate.extraCoefficients])
  have hresidual := (SparseGate.residualOf_eq_ok_iff hmid.agrees).2 ⟨hready, hk, hg.denote_eq_zero⟩
  exact ends_read hresidual (ends_pure ⟨by simp [Outcome.ofBool], hmid⟩)

/-- The visit of a gate finds that it holds. -/
theorem Context.Serves.ends_gate (h : ctx.Serves calls start v) {g : Gate k}
    (hg : g.Met ctx.table start.nWires v) (hst : st.OnTrack calls start v) :
    Ends (fun outcome mid => outcome = .satisfied ∧ SolveState.OnTrack calls start v mid)
      (g.solve ctx) st := by
  cases g with
  | rankOne g => exact h.ends_rankOne hg hst
  | sparse g => exact h.ends_sparse hg hst

/-! ## The run -/

theorem Context.Serves.ends_runPending (h : ctx.Serves calls start v)
    {pending : List (WireId × HintCall)} (hmem : ∀ e ∈ pending, e ∈ ctx.hints.entries)
    (hst : st.OnTrack calls start v) :
    Ends (fun _ => SolveState.OnTrack calls start v) (Circuit.runPending ctx pending) st := by
  induction pending generalizing st with
  | nil => exact ends_pure hst
  | cons e rest ih =>
    obtain ⟨he, hrest⟩ := List.forall_mem_cons.1 hmem
    refine ends_bind (h.ends_solveWithHint he hst) ?_
    rintro _ mid hmid
    exact ih hrest hmid

variable {s : Circuit c k} {functions : HintTable}

theorem Circuit.ends_visitGates (h : (s.context functions).Serves calls start v) {i : Nat}
    {gs : List (Gate k)} (hgs : ∀ g ∈ gs, g.Met s.table start.nWires v)
    (hst : st.OnTrack calls start v) (force : Bool) (failures : Failures) :
    Ends (fun failures' mid => failures' = failures ∧ SolveState.OnTrack calls start v mid)
      (s.visitGates functions force i gs failures) st := by
  induction gs generalizing i st with
  | nil => exact ends_pure ⟨rfl, hst⟩
  | cons g rest ih =>
    obtain ⟨hg, hrest⟩ := List.forall_mem_cons.1 hgs
    -- the visit finds that the gate holds and passes the failures on
    have hvisit : Ends (fun failures' mid => failures' = failures ∧
        SolveState.OnTrack calls start v mid) (s.visitGate functions force i g failures) st := by
      refine ends_bind (h.ends_gate hg hst) ?_
      rintro _ mid ⟨rfl, hmid⟩
      exact ends_pure ⟨rfl, hmid⟩
    refine ends_bind hvisit ?_
    rintro _ mid ⟨rfl, hmid⟩
    exact ih hrest hmid

/-- A run ends without a failure, and all along it has solved what `v` says. -/
theorem Circuit.ends_run (h : (s.context functions).Serves calls start v)
    (hgates : ∀ g ∈ s.gates.toList, g.Met s.table start.nWires v)
    (hst : st.OnTrack calls start v) (force : Bool) :
    Ends (fun failures mid => failures = .none ∧ SolveState.OnTrack calls start v mid)
      (s.run functions force) st := by
  refine ends_bind (Circuit.ends_visitGates h hgates hst force .none) ?_
  rintro _ mid ⟨rfl, hmid⟩
  -- the entries are read in full before a pending call is made
  have hrange : ∀ e ∈ s.hints.entries, e.1.index < mid.solution.nWires := by
    intro e he
    obtain ⟨hcall, hw⟩ := h.represents.mem_entries_iff.1 he
    rw [hmid.extends_start.nWires_eq]
    exact h.inRange e.2 hcall e.1 hw
  have hpending := Circuit.pendingWires_eq_ok_iff.2 ⟨hrange, rfl⟩
  refine ends_read hpending ?_
  refine ends_bind (h.ends_runPending ?_ hmid) fun _ mid' hmid' => ends_pure ⟨rfl, hmid'⟩
  intro e he
  exact ((Circuit.mem_pendingWires hpending).1 he).1

end Serves

/-! ## The solve -/

namespace Circuit

variable {s : Circuit c k} {calls : List HintCall} {assignment : List (Scalar c)}
  {registry : Registry} {options : SolverOptions} {functions : HintTable} {start : SolveState c}
  {v : Valuation c}

/-- Every internal wire is one of a call, and the calls read inputs only.  Under `v` the inputs
    have their values, and the calls give their wires what `v` has on them. -/
structure Served (s : Circuit c k) (assignment : List (Scalar c)) (functions : HintTable)
    (v : Valuation c) : Prop where
  inputs : ∀ w : WireId, s.layout.visibility? w ≠ some .internal →
    ∀ x, (1 :: assignment)[w.index]? = some x → v w = x
  produced : ∀ w, s.layout.visibility? w = some .internal →
    ∃ call ∈ s.hints.calls, w ∈ call.wires
  reads : ∀ call ∈ s.hints.calls, ∀ lc ∈ call.inputs, ∀ t ∈ lc.terms, t.visibility ≠ .internal
  gives : ∀ call ∈ s.hints.calls, call.Gives s.table functions v

/-- A wire that is not internal is the one wire or an input. -/
theorem exists_seed (hpublic : 0 < s.layout.nPublic) (hlen : assignment.length = s.layout.nInputs)
    {w : WireId} {visibility : Visibility} (hw : s.layout.visibility? w = some visibility)
    (hinput : visibility ≠ .internal) : ∃ x, (1 :: assignment)[w.index]? = some x := by
  have hclass : s.layout.visibility? w = some .pub ∨ s.layout.visibility? w = some .secret := by
    cases visibility with
    | pub => exact .inl hw
    | secret => exact .inr hw
    | internal => exact absurd rfl hinput
    | virtual => exact absurd hw (s.layout.visibility?_ne_virtual w)
  obtain ⟨solution, hseeds⟩ := exists_seeded hpublic hlen
  have hsome := ((Layout.seeded_of_seeds hpublic hlen hseeds).solved_iff w).2 hclass
  rw [get?_of_seeds hseeds] at hsome
  exact Option.isSome_iff_exists.1 hsome

/-- The wires that are not internal are solved from the start. -/
theorem Starts.isSome_get? (hstarts : s.Starts assignment registry options functions start)
    (hpublic : 0 < s.layout.nPublic) {w : WireId} {visibility : Visibility}
    (hw : s.layout.visibility? w = some visibility) (hinput : visibility ≠ .internal) :
    (start.solution.get? w).isSome := by
  obtain ⟨x, hx⟩ := exists_seed hpublic hstarts.length_eq hw hinput
  rw [hstarts.get?_eq, hx]
  rfl

theorem Served.serves (h : s.Served assignment functions v) (hbuilt : Built calls s)
    (hs : s.WellFormed) (hset : s.OperandsSet)
    (hstarts : s.Starts assignment registry options functions start) :
    (s.context functions).Serves calls start.solution v := by
  have hrep := hbuilt.represents
  constructor
  case represents => exact hrep
  case gives => exact h.gives
  case inRange =>
    intro call hcall w hw
    rw [hstarts.nWires_eq]
    exact (hstarts.get?_output hrep hs hcall hw).1
  case covers =>
    intro w hlt
    rw [hstarts.nWires_eq] at hlt
    cases hw : s.layout.visibility? w with
    | none => exact absurd hlt (Nat.not_lt.2 (Layout.visibility?_eq_none_iff.1 hw))
    | some visibility =>
      -- only internal wires are not solved from the start
      by_cases hinternal : visibility = .internal
      · rw [hinternal] at hw
        obtain ⟨call, hcall, hmem⟩ := h.produced w hw
        exact .inr ⟨call, (hrep.mem_calls_iff.1 hcall).1, hmem⟩
      · exact .inl (hstarts.isSome_get? hs.oneWire hw hinternal)
  case reads =>
    intro call hcall lc hlc
    refine ⟨hset.calls call hcall lc hlc, ?_⟩
    intro t ht
    obtain ⟨hcoeff, hwire⟩ := (hs.calls call hcall).1 lc hlc t ht
    refine ⟨hcoeff, ?_⟩
    intro hreal
    exact hstarts.isSome_get? hs.oneWire (hwire hreal) (h.reads call hcall lc hlc t ht)

theorem Served.onTrack (h : s.Served assignment functions v) (hbuilt : Built calls s)
    (hs : s.WellFormed) (hstarts : s.Starts assignment registry options functions start) :
    start.OnTrack calls start.solution v := by
  refine ⟨.refl _, ?_, hstarts.unbegun hbuilt.represents hs⟩
  intro w x hx
  have hinput : s.layout.visibility? w ≠ some .internal := by
    intro habs
    rw [hstarts.get?_internal hs.oneWire habs] at hx
    cases hx
  rw [hstarts.get?_eq] at hx
  exact h.inputs w hinput x hx

/-- If all gates hold under `v`, the run ends without a failure, and has solved every wire as
    `v` says. -/
theorem Served.exists_run (h : s.Served assignment functions v) (hbuilt : Built calls s)
    (hs : s.WellFormed) (hset : s.OperandsSet)
    (hgates : ∀ g ∈ s.gates.toList, g.denote s.table v = 0)
    (hstarts : s.Starts assignment registry options functions start) (force : Bool) :
    ∃ st, exec (s.run functions force) start = (.ok .none, st) ∧
      ∀ w : WireId, w.index < s.nWires → st.solution.get? w = some (v w) := by
  have hrep := hbuilt.represents
  have hserves := h.serves hbuilt hs hset hstarts
  have hmet : ∀ g ∈ s.gates.toList, g.Met s.table start.solution.nWires v := by
    intro g hg
    refine ⟨hset.gates g hg, ?_, hgates g hg⟩
    rw [hstarts.nWires_eq]
    exact (hs.gates g hg).inBounds
  obtain ⟨_, st, hexec, rfl, hst⟩ := ends_run hserves hmet (h.onTrack hbuilt hs hstarts) force
  refine ⟨st, hexec, ?_⟩
  intro w hw
  have hsome : (st.solution.get? w).isSome := by
    rw [← hstarts.nWires_eq] at hw
    rcases hserves.covers w hw with hsome | ⟨call, hcall, hmem⟩
    · exact hst.extends_start.isSome hsome
    · -- the pending calls leave no wire of a call unsolved
      obtain ⟨-, -, -, hentries⟩ := run_eq_ok hrep hexec
      exact hentries (w, call) (hrep.mem_entries_iff.2 ⟨hcall, hmem⟩)
  -- the state agrees with the assignment, and here it has a value
  obtain ⟨x, hx⟩ := Option.isSome_iff_exists.1 hsome
  rw [hx, hst.agrees w x hx]

/-- If all gates hold under `v`, the solve ends with `v` for a witness. -/
theorem Served.exists_solve (h : s.Served assignment functions v) (hbuilt : Built calls s)
    (hvalid : s.validate = .ok ()) (hset : s.OperandsSet)
    (hlen : assignment.length = s.layout.nInputs)
    (hfunctions : hintTable registry options = .ok functions)
    (hgates : ∀ g ∈ s.gates.toList, g.denote s.table v = 0) :
    ∃ w, (s.solve assignment registry options).result = .ok w ∧ w.isSatisfied = true ∧
      ∀ u : WireId, u.index < s.nWires → w.values[u.index]? = some (v u) := by
  have hs := validate_eq_ok_iff.1 hvalid
  have hrep := hbuilt.represents
  obtain ⟨solution, hseeds⟩ := exists_seeded hs.oneWire hlen
  have hstarts : s.Starts assignment registry options functions
      ⟨solution, registry.pool, #[.started k s.nWires s.nConstraints]⟩ :=
    ⟨hlen, hfunctions, hseeds, rfl, rfl⟩
  obtain ⟨st, hexec, hsolved⟩ := h.exists_run hbuilt hs hset hgates hstarts options.force
  have hwhole : st.solution.isValid = true := by
    rw [hstarts.isValid_iff hrep hexec]
    intro w hw
    rw [hsolved w hw]
    rfl
  have hconclude : conclude st.solution .none = .ok ⟨st.solution.complete, #[], 0⟩ :=
    conclude_eq_ok_iff.2 ⟨hwhole, rfl⟩
  refine ⟨⟨st.solution.complete, #[], 0⟩, ?_, rfl, ?_⟩
  · rw [hstarts.solve_eq]
    -- nothing is printed that could fault
    rcases reports_cases hs hrep hset (hstarts.steady hrep hs) hexec (reports_of_run hexec) with
      ⟨e, habs, -⟩ | ⟨failures, hended, hresult⟩
    · cases habs
    · cases hended
      exact hresult.trans hconclude
  · intro u hu
    exact Solution.getElem?_complete (hsolved u hu)

end Circuit

end CircuitWitness
