import CircuitWitness.Proofs.Solver.Call
import CircuitWitness.Solver.Search

/-! # What a search finds

    A search runs the hint calls behind the terms that it visits.  If it goes to
    the end, every term can be computed, or holds the one unknown that was
    found: a wire that no call produces and that is still unsolved at the end.
-/

namespace CircuitWitness

open Solving

variable {c : Curve} {π : Type}

/-- The term needs an unsolved wire that no call produces. -/
structure Exposed (ctx : Context c) (s : Solution c) (t : Term) : Prop where
  isOpen : s.Open t
  unproduced : ctx.hints.producer? t.wire = none

/-- The wire of the term is a wire of the circuit, if the term has one. -/
def Term.InRange (n : Nat) (t : Term) : Prop := t.isVirtual = false → t.wire.index < n

/-- What a search that started with the unknown `found` ends with.  `same` holds
    between places that may hold one unknown. -/
inductive Sought (ctx : Context c) (s : Solution c) (term : π → Term) (same : π → π → Prop)
    (found : Option π) (places : List π) : Unknowns π → Prop where
  | none (hfound : found = Option.none)
      (hrange : ∀ p ∈ places, (term p).InRange s.nWires)
      (hknown : ∀ p ∈ places, s.Known (term p)) : Sought ctx s term same found places .none
  | one (q : π) (horigin : q ∈ places ∨ found = some q)
      (hrange : ∀ p ∈ places, (term p).InRange s.nWires)
      (hknown : ∀ p ∈ places, s.Known (term p) ∨ same p q)
      (hfound : ∀ p, found = some p → same p q)
      (hexposed : Exposed ctx s (term q)) : Sought ctx s term same found places (.one q)
  | several : Sought ctx s term same found places .several

/-! ## One step -/

theorem seekUnknown_cons (ctx : Context c) (term : π → Term) (clash : π → π → Bool)
    (found : Option π) (p : π) (rest : List π) :
    seekUnknown ctx term clash found (p :: rest) = (do
      resolve ctx (term p)
      if ← Solving.read (·.isKnown (term p)) then seekUnknown ctx term clash found rest
      else
        match found with
        | some q =>
          if clash q p then return .several else seekUnknown ctx term clash (some p) rest
        | none => seekUnknown ctx term clash (some p) rest) := by
  cases found <;> rfl

section Step

variable {ctx : Context c} {term : π → Term} {clash : π → π → Bool} {found : Option π} {p : π}
  {rest : List π} {st st' : SolveState c}

/-- A place is passed, clashes with the unknown so far, or becomes the unknown. -/
theorem seekUnknown_cons_eq_ok {u : Unknowns π}
    (hexec : exec (seekUnknown ctx term clash found (p :: rest)) st = (.ok u, st')) :
    ∃ mid, exec (resolve ctx (term p)) st = (.ok (), mid) ∧
      ((mid.solution.Known (term p) ∧
          exec (seekUnknown ctx term clash found rest) mid = (.ok u, st')) ∨
        (∃ q, found = some q ∧ clash q p = true ∧ u = .several ∧ st' = mid ∧
          mid.solution.Open (term p)) ∨
        (mid.solution.Open (term p) ∧ (∀ q, found = some q → clash q p = false) ∧
          exec (seekUnknown ctx term clash (some p) rest) mid = (.ok u, st'))) := by
  rw [seekUnknown_cons, exec_bind_eq_ok_iff] at hexec
  obtain ⟨⟨⟩, mid, hresolve, hexec⟩ := hexec
  rw [exec_bind_eq_ok_iff] at hexec
  obtain ⟨b, mid', hread, hexec⟩ := hexec
  obtain ⟨hb, rfl⟩ := exec_read_eq_ok_iff.1 hread
  refine ⟨mid', hresolve, ?_⟩
  -- a place is passed over, or it is the first unknown, or it is a second one
  cases b with
  | true => exact .inl ⟨Solution.isKnown_true_iff.1 hb, hexec⟩
  | false =>
    have hopen := Solution.isKnown_false_iff.1 hb
    rw [if_neg (by decide)] at hexec
    cases found with
    | none => exact .inr (.inr ⟨hopen, nofun, hexec⟩)
    | some q =>
      simp only at hexec
      cases hclash : clash q p with
      | true =>
        rw [hclash, if_pos rfl] at hexec
        cases hexec
        exact .inr (.inl ⟨q, rfl, hclash, rfl, rfl, hopen⟩)
      | false =>
        rw [hclash, if_neg (by decide)] at hexec
        refine .inr (.inr ⟨hopen, ?_, hexec⟩)
        intro q' hq'
        cases hq'
        exact hclash

end Step

/-! ## The whole search -/

/-- A search goes on after the places before if it has not stopped there. -/
theorem seekUnknown_append (ctx : Context c) (term : π → Term) (clash : π → π → Bool)
    (found : Option π) (before after : List π) :
    seekUnknown ctx term clash found (before ++ after) = (do
      match ← seekUnknown ctx term clash found before with
      | .several => return .several
      | .none => seekUnknown ctx term clash none after
      | .one q => seekUnknown ctx term clash (some q) after) := by
  induction before generalizing found with
  | nil => cases found <;> rfl
  | cons p rest ih =>
    rw [List.cons_append, seekUnknown_cons, seekUnknown_cons, bind_assoc]
    simp only [bind_assoc, ih]
    -- both searches look at the first place alike, and differ in what they do with it
    congr 1
    funext _
    congr 1
    funext b
    cases b with
    | true => rfl
    | false =>
      cases found with
      | none => rfl
      | some q => cases hclash : clash q p <;> simp [hclash]

/-- A search from `st` comes to a term in the state `mid`: the places before it are searched,
    and no two of them clash. -/
inductive SearchReaches (ctx : Context c) (term : π → Term) (clash : π → π → Bool)
    (found : Option π) (places : List π) (st : SolveState c) : Term → SolveState c → Prop where
  | place {before after : List π} {p : π} {u : Unknowns π} {mid : SolveState c}
      (hplaces : places = before ++ p :: after)
      (hexec : exec (seekUnknown ctx term clash found before) st = (.ok u, mid))
      (hgoes : u ≠ .several) : SearchReaches ctx term clash found places st (term p) mid

section Reaches

variable {A H : SolveState c → SolveState c → Prop} {ctx : Context c} {term : π → Term}
  {clash : π → π → Bool} {found : Option π} {places : List π} {st mid : SolveState c} {t : Term}

theorem SearchReaches.append (h : SearchReaches ctx term clash found places st t mid)
    (more : List π) : SearchReaches ctx term clash found (places ++ more) st t mid := by
  obtain @⟨before, after, p, _, _, hplaces, hexec, hgoes⟩ := h
  have hmore : places ++ more = before ++ p :: (after ++ more) := by
    rw [hplaces, List.append_assoc, List.cons_append]
  exact .place hmore hexec hgoes

theorem searchReaches_last {u : Unknowns π}
    (hexec : exec (seekUnknown ctx term clash found places) st = (.ok u, mid))
    (hgoes : u ≠ .several) (p : π) :
    SearchReaches ctx term clash found (places ++ [p]) st (term p) mid :=
  .place rfl hexec hgoes

/-- After the request for its wire, a single place is only looked at. -/
theorem path_place {p : π} (hresolve : Path A H st (exec (resolve ctx (term p)) st)) :
    Path A H st (exec (seekUnknown ctx term clash found [p]) st) := by
  rw [seekUnknown_cons]
  apply path_bind hresolve
  intro _ mid _
  apply path_bind (follows_read _ mid)
  intro b mid' _
  cases b with
  | true => exact follows_pure _ mid'
  | false =>
    cases found with
    | none => exact follows_pure _ mid'
    | some q =>
      -- a second unknown may end the search here
      show Path A H mid' (exec (if clash q p then _ else _) mid')
      split
      · exact follows_pure _ mid'
      · exact follows_pure _ mid'

/-- A search does what the requests do at the places that it comes to. -/
theorem path_search
    (hresolve : ∀ t mid, SearchReaches ctx term clash found places st t mid →
      Path A H mid (exec (resolve ctx t) mid)) :
    Path A H st (exec (seekUnknown ctx term clash found places) st) := by
  -- from the last place backwards, because what is reached is told by the places before it
  induction places using List.reverseRecOn with
  | nil => exact follows_pure _ st
  | append_singleton places p ih =>
    rw [seekUnknown_append]
    apply path_bind (ih fun t mid hreaches => hresolve t mid (hreaches.append [p]))
    intro u mid hseek
    cases u with
    | several => exact follows_pure _ mid
    | none => exact path_place (hresolve _ mid (searchReaches_last hseek nofun p))
    | one q => exact path_place (hresolve _ mid (searchReaches_last hseek nofun p))

end Reaches

theorem follows_seekUnknown (ctx : Context c) (term : π → Term) (clash : π → π → Bool)
    (found : Option π) (places : List π) :
    Follows (HintRan ctx) (HintStopped ctx) (seekUnknown ctx term clash found places) :=
  fun _ => path_search fun t mid _ => follows_resolve ctx t mid

/-- A search stops as its hint calls do. -/
theorem stops_seekUnknown {P : SolverError → SolveState c → Prop} {ctx : Context c}
    (hresolve : ∀ t, Stops P (resolve ctx t)) (term : π → Term) (clash : π → π → Bool)
    (found : Option π) (places : List π) :
    Stops P (seekUnknown ctx term clash found places) := by
  induction places generalizing found with
  | nil => exact stops_pure _
  | cons p rest ih =>
    rw [seekUnknown_cons]
    refine stops_bind (hresolve (term p)) ?_
    intro _
    refine stops_bind (stops_read _) ?_
    intro b
    -- whether the place is known or not, the search stops or goes on with the rest
    cases b with
    | true => exact ih found
    | false =>
      cases found with
      | none => exact ih (some p)
      | some q =>
        show Stops _ (if clash q p then _ else _)
        split
        · exact stops_pure _
        · exact ih (some p)

section Runs

open Relation

variable {ctx : Context c} {calls : List HintCall} {st st' : SolveState c}

theorem extends_of_runs (h : ReflTransGen (HintRan ctx) st st') :
    st.solution.Extends st'.solution := by
  induction h with
  | refl => exact .refl _
  | tail _ hran ih => exact ih.trans hran.extends

/-- Hint calls leave a wire without a producer as it is. -/
theorem get?_of_runs (hrep : ctx.hints.Represents calls)
    (h : ReflTransGen (HintRan ctx) st st') {w : WireId} (hw : ctx.hints.producer? w = none) :
    st'.solution.get? w = st.solution.get? w := by
  induction h with
  | refl => rfl
  | tail _ hran ih => rw [hran.get?_of_unproduced hrep hw, ih]

/-- Hint calls leave an exposed term exposed. -/
theorem Exposed.of_runs (hrep : ctx.hints.Represents calls)
    (h : ReflTransGen (HintRan ctx) st st') {t : Term} (ht : Exposed ctx st.solution t) :
    Exposed ctx st'.solution t := by
  have hkept := get?_of_runs hrep h ht.unproduced
  refine ⟨⟨ht.isOpen.real, ht.isOpen.coeff_ne, ?_, ?_⟩, ht.unproduced⟩
  · rw [(extends_of_runs h).nWires_eq]
    exact ht.isOpen.lt
  · rw [hkept]
    exact ht.isOpen.unsolved

end Runs

section Found

variable {ctx : Context c} {term : π → Term} {clash : π → π → Bool} {same : π → π → Prop}
  {places : List π} {found : Option π} {st st' : SolveState c}

/-- A call is not run for a wire that does not exist. -/
theorem inRange_of_resolve {t : Term} (hexec : exec (resolve ctx t) st = (.ok (), st')) :
    t.InRange st'.solution.nWires := by
  intro hreal
  have hext := extends_of_runs ((follows_resolve ctx t).ok hexec)
  unfold resolve at hexec
  rw [if_neg (by simp [hreal]), exec_bind_eq_ok_iff] at hexec
  obtain ⟨b, mid, hread, -⟩ := hexec
  obtain ⟨hsolved, rfl⟩ := exec_read_eq_ok_iff.1 hread
  rw [hext.nWires_eq]
  exact (Solution.isSolved_eq_ok_iff.1 hsolved).1

theorem extends_of_seekUnknown {u : Unknowns π}
    (hexec : exec (seekUnknown ctx term clash found places) st = (.ok u, st')) :
    st.solution.Extends st'.solution :=
  extends_of_runs ((follows_seekUnknown ctx term clash found places).ok hexec)

/-- A search that goes to the end has come to every place. -/
theorem inRange_of_seekUnknown {u : Unknowns π}
    (hexec : exec (seekUnknown ctx term clash found places) st = (.ok u, st'))
    (hu : u ≠ .several) : ∀ p ∈ places, (term p).InRange st'.solution.nWires := by
  induction places generalizing found st with
  | nil => simp
  | cons p rest ih =>
    obtain ⟨mid, hresolve, hstep⟩ := seekUnknown_cons_eq_ok hexec
    have hp := inRange_of_resolve hresolve
    -- a search that goes on leaves the number of wires as it is
    rcases hstep with ⟨-, hexec⟩ | ⟨q, -, -, habs, -⟩ | ⟨-, -, hexec⟩
    · rw [← (extends_of_seekUnknown hexec).nWires_eq] at hp
      exact List.forall_mem_cons.2 ⟨hp, ih hexec⟩
    · exact absurd habs hu
    · rw [← (extends_of_seekUnknown hexec).nWires_eq] at hp
      exact List.forall_mem_cons.2 ⟨hp, ih hexec⟩

/-- An unknown is not forgotten. -/
theorem ne_none_of_seekUnknown {q : π} {u : Unknowns π}
    (hexec : exec (seekUnknown ctx term clash (some q) places) st = (.ok u, st')) :
    u ≠ .none := by
  induction places generalizing q st with
  | nil =>
    cases hexec
    exact nofun
  | cons p rest ih =>
    obtain ⟨mid, -, ⟨-, hexec⟩ | ⟨-, -, -, rfl, -⟩ | ⟨-, -, hexec⟩⟩ := seekUnknown_cons_eq_ok hexec
    · exact ih hexec
    · exact nofun
    · exact ih hexec

/-- A search without an unknown has found every term known. -/
theorem known_of_seekUnknown
    (hexec : exec (seekUnknown ctx term clash found places) st = (.ok .none, st')) :
    found = none ∧ ∀ p ∈ places, st'.solution.Known (term p) := by
  induction places generalizing found st with
  | nil =>
    cases found with
    | none => exact ⟨rfl, by simp⟩
    | some q => exact absurd rfl (ne_none_of_seekUnknown hexec)
  | cons p rest ih =>
    -- a search that finds nothing has met no unknown, and none was found before it
    obtain ⟨mid, -, ⟨hknown, hexec⟩ | ⟨-, -, -, habs, -⟩ | ⟨-, -, hexec⟩⟩ :=
      seekUnknown_cons_eq_ok hexec
    · obtain ⟨hfound, hrest⟩ := ih hexec
      refine ⟨hfound, List.forall_mem_cons.2 ⟨?_, hrest⟩⟩
      exact hknown.of_extends (extends_of_seekUnknown hexec)
    · cases habs
    · exact absurd rfl (ne_none_of_seekUnknown hexec)

/-- The one unknown of a search is the unknown of every place that is not known. -/
theorem same_of_seekUnknown (same : π → π → Prop) (hrefl : ∀ p, same p p)
    (htrans : ∀ p q r, same p q → same q r → same p r)
    (hclash : ∀ q p, clash q p = false → same q p) {q : π}
    (hexec : exec (seekUnknown ctx term clash found places) st = (.ok (.one q), st')) :
    (q ∈ places ∨ found = some q) ∧ (∀ p ∈ places, st'.solution.Known (term p) ∨ same p q) ∧
      ∀ p, found = some p → same p q := by
  induction places generalizing found st with
  | nil =>
    cases found with
    | none => cases hexec
    | some q =>
      cases hexec
      refine ⟨.inr rfl, by simp, ?_⟩
      intro p hp
      cases hp
      exact hrefl q
  | cons p rest ih =>
    obtain ⟨mid, -, ⟨hknown, hexec⟩ | ⟨-, -, -, habs, -⟩ | ⟨-, hsame, hexec⟩⟩ :=
      seekUnknown_cons_eq_ok hexec
    · obtain ⟨horigin, hrest, hfrom⟩ := ih hexec
      refine ⟨horigin.imp_left (List.mem_cons_of_mem p), ?_, hfrom⟩
      have hp := hknown.of_extends (extends_of_seekUnknown hexec)
      exact List.forall_mem_cons.2 ⟨.inl hp, hrest⟩
    · cases habs
    · -- the place takes the part of the unknown that was found before it
      obtain ⟨horigin, hrest, hfrom⟩ := ih hexec
      have hpq := hfrom p rfl
      refine ⟨.inl ?_, List.forall_mem_cons.2 ⟨.inr hpq, hrest⟩, ?_⟩
      · rcases horigin with hmem | heq
        · exact List.mem_cons_of_mem p hmem
        · cases heq
          exact List.mem_cons_self
      · intro p' hp'
        exact htrans p' p q (hclash p' p (hsame p' hp')) hpq

/-- What holds of an open term after its call, and is kept by the calls of other terms, holds
    of the unknown of a search at the end. -/
theorem unknown_of_seekUnknown {I : SolveState c → Term → Prop}
    (hopens : ∀ {t st mid}, exec (resolve ctx t) st = (.ok (), mid) → mid.solution.Open t → I mid t)
    (hkeeps : ∀ {t t' st mid}, exec (resolve ctx t') st = (.ok (), mid) → I st t → I mid t)
    (hfound : ∀ p, found = some p → I st (term p)) {q : π}
    (hexec : exec (seekUnknown ctx term clash found places) st = (.ok (.one q), st')) :
    I st' (term q) := by
  -- the invariant is of the unknown found last, which each new one replaces
  induction places generalizing found st with
  | nil =>
    cases found with
    | none => cases hexec
    | some q =>
      cases hexec
      exact hfound q rfl
  | cons p rest ih =>
    obtain ⟨mid, hresolve, ⟨-, hexec⟩ | ⟨-, -, -, habs, -⟩ | ⟨hopen, -, hexec⟩⟩ :=
      seekUnknown_cons_eq_ok hexec
    · exact ih (fun p hp => hkeeps hresolve (hfound p hp)) hexec
    · cases habs
    · refine ih ?_ hexec
      intro p' hp'
      cases hp'
      exact hopens hresolve hopen

/-- A search finds what it should, for every relation between places that follows
    from their not clashing. -/
theorem sought_of_seekUnknown {calls : List HintCall}
    (hrep : ctx.hints.Represents calls) (hrefl : ∀ p, same p p)
    (htrans : ∀ p q r, same p q → same q r → same p r)
    (hclash : ∀ q p, clash q p = false → same q p)
    (hfound : ∀ q, found = some q → Exposed ctx st.solution (term q))
    {u : Unknowns π}
    (hexec : exec (seekUnknown ctx term clash found places) st = (.ok u, st')) :
    Sought ctx st'.solution term same found places u := by
  cases u with
  | none =>
    obtain ⟨hnone, hknown⟩ := known_of_seekUnknown hexec
    exact .none hnone (inRange_of_seekUnknown hexec nofun) hknown
  | several => exact .several
  | one q =>
    obtain ⟨horigin, hknown, hfrom⟩ := same_of_seekUnknown same hrefl htrans hclash hexec
    refine .one q horigin (inRange_of_seekUnknown hexec nofun) hknown hfrom ?_
    refine unknown_of_seekUnknown (I := fun st t => Exposed ctx st.solution t) ?_ ?_ hfound hexec
    · -- after its call ran, an open term has a wire that no call produces
      intro t st mid hresolve hopen
      refine ⟨hopen, (solved_of_resolve hrep hresolve hopen.real).2.resolve_left ?_⟩
      rw [hopen.unsolved]
      simp
    · intro t t' st mid hresolve hexposed
      exact hexposed.of_runs hrep ((follows_resolve ctx t').ok hresolve)

end Found

/-- A search over terms in bounds faults only in a hint call. -/
theorem faults_seekUnknown {P : Fault → Prop} {ctx : Context c} {calls : List HintCall}
    {st : SolveState c} (hctx : ctx.SoundUpTo P calls st.solution.nWires)
    (hst : Unbegun calls st.solution)
    {term : π → Term} {clash : π → π → Bool} {found : Option π} {places : List π}
    (hplaces : ∀ p ∈ places, (term p).InBounds ctx.table st.solution.nWires) :
    Faults P (seekUnknown ctx term clash found places) st := by
  -- the calls made on the way neither add wires nor begin a call without ending it
  induction places generalizing found st with
  | nil => exact faults_pure _ st
  | cons p rest ih =>
    have hp := hplaces p List.mem_cons_self
    rw [seekUnknown_cons]
    refine faults_bind (faults_resolve hctx hst hp) ?_
    intro _ mid hresolve
    have hruns := (follows_resolve ctx (term p)).ok hresolve
    have hmid : Unbegun calls mid.solution :=
      preserved (I := fun st => Unbegun calls st.solution)
        (fun _ _ hran => hran.unbegun hctx.represents) hruns hst
    have hn := (extends_of_runs hruns).nWires_eq
    rw [← hn] at hctx hp hplaces
    have hrest : ∀ found, Faults P (seekUnknown ctx term clash found rest) mid := by
      intro found
      exact ih hctx hmid fun q hq => hplaces q (List.mem_cons_of_mem p hq)
    refine faults_bind (faults_read_of_ok (Solution.exists_isKnown hp)) ?_
    intro b mid' hread
    obtain ⟨-, rfl⟩ := exec_read_eq_ok_iff.1 hread
    cases b with
    | true => exact hrest found
    | false =>
      cases found with
      | none => exact hrest (some p)
      | some q =>
        show Faults P (if clash q p then _ else _) mid'
        split
        · exact faults_pure _ mid'
        · exact hrest (some p)

end CircuitWitness
