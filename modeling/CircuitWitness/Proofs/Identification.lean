import CircuitWitness.Proofs.Leakage
import CircuitWitness.Proofs.Solver.Lookup

/-! # Functions are known by their identifiers

    A solve has the functions of the registry and those of its options, and tells
    them apart by their identifiers.  It is refused if and only if two of them have
    one identifier, and then the error names the first function of the options whose
    identifier is taken by a registered one or by one before it (`FirstRepeated`).
    Otherwise nothing depends on where a function is kept, on the order in which the
    registry lists its functions, or on functions that no call asks for.
-/

namespace CircuitWitness

open Solving

variable {c : Curve} {k : Kind}

/-! ## Identifiers -/

/-- `h` is the first of the functions `extra` whose identifier is taken: by one of
    `found`, or by one of `extra` before it. -/
def FirstRepeated (found extra : List HintFunction) (h : HintFunction) : Prop :=
  ∃ before after, extra = before ++ h :: after ∧
    ((found ++ before).map HintFunction.id).Nodup ∧ h.id ∈ (found ++ before).map HintFunction.id

section FirstRepeated

variable {found found' extra : List HintFunction} {h h' : HintFunction}

theorem not_mem_of_nodup {rest : List HintFunction}
    (hnd : ((found ++ h :: rest).map HintFunction.id).Nodup) :
    h.id ∉ found.map HintFunction.id := by
  intro hmem
  rw [List.map_append, List.map_cons] at hnd
  exact (List.nodup_append.1 hnd).2.2 h.id hmem h.id List.mem_cons_self rfl

theorem FirstRepeated.not_nodup (hfirst : FirstRepeated found extra h) :
    ¬((found ++ extra).map HintFunction.id).Nodup := by
  obtain ⟨before, after, rfl, -, hmem⟩ := hfirst
  intro hnd
  rw [← List.append_assoc] at hnd
  exact not_mem_of_nodup hnd hmem

/-- If identifiers repeat, there is a first that does. -/
theorem exists_firstRepeated (hfound : (found.map HintFunction.id).Nodup)
    (hrepeat : ¬((found ++ extra).map HintFunction.id).Nodup) :
    ∃ h, FirstRepeated found extra h := by
  -- a function whose identifier is free joins those that were found
  induction extra generalizing found with
  | nil =>
    rw [List.append_nil] at hrepeat
    exact absurd hfound hrepeat
  | cons g rest ih =>
    by_cases hg : g.id ∈ found.map HintFunction.id
    · refine ⟨g, [], rest, rfl, ?_⟩
      rw [List.append_nil]
      exact ⟨hfound, hg⟩
    · have hfound' : ((found ++ [g]).map HintFunction.id).Nodup := by
        rw [List.map_append]
        exact hfound.append (List.nodup_singleton _) (by simpa using hg)
      rw [List.append_cons] at hrepeat
      obtain ⟨h, before, after, rfl, hfirst⟩ := ih hfound' hrepeat
      rw [← List.append_cons] at hfirst
      exact ⟨h, g :: before, after, rfl, hfirst⟩

/-- The order of the functions that were found does not matter. -/
theorem FirstRepeated.of_perm (hfirst : FirstRepeated found extra h) (hperm : found.Perm found') :
    FirstRepeated found' extra h := by
  obtain ⟨before, after, hextra, hnd, hmem⟩ := hfirst
  have hids := (hperm.append_right before).map HintFunction.id
  exact ⟨before, after, hextra, hids.nodup_iff.1 hnd, hids.mem_iff.1 hmem⟩

/-- The functions that were found can be counted among the others. -/
theorem FirstRepeated.joined (hfirst : FirstRepeated found extra h) :
    FirstRepeated [] (found ++ extra) h := by
  obtain ⟨before, after, rfl, hnd, hmem⟩ := hfirst
  exact ⟨found ++ before, after, (List.append_assoc ..).symm, hnd, hmem⟩

end FirstRepeated

/-! ## Tables -/

namespace HintTable

theorem isSome_find?_iff {t : HintTable} {id : HintId} :
    (t.find? id).isSome ↔ id ∈ t.functions.map HintFunction.id := by
  unfold find?
  rw [List.find?_isSome, List.mem_map]
  simp

theorem foldlM_add_eq_ok {l : List HintFunction} {t : HintTable}
    (hnd : ((t.functions ++ l).map HintFunction.id).Nodup) :
    l.foldlM add t = .ok ⟨t.functions ++ l⟩ := by
  induction l generalizing t with
  | nil =>
    rw [List.append_nil]
    rfl
  | cons g rest ih =>
    have hfree : ¬(t.find? g.id).isSome := by
      rw [isSome_find?_iff]
      exact not_mem_of_nodup hnd
    have hadd : t.add g = .ok ⟨t.functions ++ [g]⟩ := if_neg hfree
    rw [List.append_cons] at hnd ⊢
    rw [List.foldlM_cons, hadd]
    exact ih hnd

/-- Functions with identifiers of their own make a table. -/
theorem ofList_eq_ok {l : List HintFunction} (hnd : (l.map HintFunction.id).Nodup) :
    ofList l = .ok ⟨l⟩ := foldlM_add_eq_ok hnd

/-- The first function whose identifier is taken is the one that is reported. -/
theorem ofList_eq_error {l : List HintFunction} {h : HintFunction}
    (hfirst : FirstRepeated [] l h) : ofList l = .error (.duplicateHint h.id h.name) := by
  obtain ⟨before, after, rfl, hnd, hmem⟩ := hfirst
  have hadd : (HintTable.mk before).add h = .error (.duplicateHint h.id h.name) :=
    if_pos (isSome_find?_iff.2 hmem)
  have hbefore : before.foldlM add ⟨[]⟩ = .ok ⟨before⟩ := ofList_eq_ok hnd
  rw [ofList, List.foldlM_append, hbefore]
  show (h :: after).foldlM add ⟨before⟩ = _
  rw [List.foldlM_cons, hadd]
  rfl

/-- Tables that hold the same functions of an identifier find the same under it. -/
theorem find?_congr {t t' : HintTable} (ht : (t.functions.map HintFunction.id).Nodup)
    (ht' : (t'.functions.map HintFunction.id).Nodup) {id : HintId}
    (h : ∀ g : HintFunction, g.id = id → (g ∈ t.functions ↔ g ∈ t'.functions)) :
    t.find? id = t'.find? id := by
  apply Option.ext
  intro g
  rw [find?_eq_some_iff ht, find?_eq_some_iff ht']
  exact and_congr_left (h g)

end HintTable

/-! ## Solves -/

namespace Circuit

variable {s : Circuit c k} {assignment : List (Scalar c)} {registry : Registry}
  {options : SolverOptions}

theorem hintTable_eq_ok
    (hnd : ((registry.functions ++ options.hintFunctions).map HintFunction.id).Nodup) :
    hintTable registry options = .ok ⟨registry.snapshot ++ options.hintFunctions⟩ := by
  have hids := (registry.snapshot_perm.append_right options.hintFunctions).map HintFunction.id
  exact HintTable.ofList_eq_ok (hids.nodup_iff.2 hnd)

/-- A solve whose functions repeat an identifier is refused. -/
theorem solve_of_firstRepeated {h : HintFunction} (hlen : assignment.length = s.layout.nInputs)
    (hfirst : FirstRepeated registry.functions options.hintFunctions h) :
    s.solve assignment registry options = ⟨.error (.error (.duplicateHint h.id h.name)),
      registry.pool, options.logger, #[.started k s.nWires s.nConstraints]⟩ := by
  have hsnapshot := hfirst.of_perm registry.snapshot_perm.symm
  have htable : hintTable registry options = .error (.duplicateHint h.id h.name) :=
    HintTable.ofList_eq_error hsnapshot.joined
  simp only [solve_eq]
  rw [if_neg (not_not.2 hlen), htable]

/-- A run does not stop because of identifiers. -/
theorem run_ne_duplicateHint {functions : HintTable} {force : Bool} {start st : SolveState c}
    {e : SolverError} (hexec : exec (s.run functions force) start = (.error (.error e), st))
    (id : HintId) (name : String) : e ≠ .duplicateHint id name := by
  refine stops_run (P := fun e _ => e ≠ .duplicateHint id name) ?_ nofun nofun start e st hexec
  intro w call
  apply raises_iff.1
  rintro st e hstop rfl
  exact raises_solveWithHint _ w call st _ hstop

/-- Functions with identifiers of their own do not stop a solve. -/
theorem solve_ne_duplicateHint
    (hnd : ((registry.functions ++ options.hintFunctions).map HintFunction.id).Nodup)
    (id : HintId) (name : String) :
    (s.solve assignment registry options).result ≠ .error (.error (.duplicateHint id name)) := by
  intro hresult
  -- the solve gets its table, and its run reports other errors
  rcases solve_eq_error hresult with hrefuses | ⟨functions, start, st, -, hexec⟩
  · cases hrefuses with
    | functions htable =>
      rw [hintTable_eq_ok hnd] at htable
      cases htable
  · exact run_ne_duplicateHint hexec id name rfl

/-- The identifier that is reported is that of the first function that repeats one. -/
theorem duplicateHint_iff (hlen : assignment.length = s.layout.nInputs)
    (hregistry : (registry.functions.map HintFunction.id).Nodup) {id : HintId} {name : String} :
    (s.solve assignment registry options).result = .error (.error (.duplicateHint id name)) ↔
      ∃ h, FirstRepeated registry.functions options.hintFunctions h ∧ h.id = id ∧
        h.name = name := by
  constructor
  · intro hresult
    -- the functions repeat an identity or they do not, and only then is the table refused
    by_cases hnd : ((registry.functions ++ options.hintFunctions).map HintFunction.id).Nodup
    · exact absurd hresult (solve_ne_duplicateHint hnd id name)
    · obtain ⟨h, hfirst⟩ := exists_firstRepeated hregistry hnd
      rw [solve_of_firstRepeated hlen hfirst] at hresult
      cases hresult
      exact ⟨h, hfirst, rfl, rfl⟩
  · rintro ⟨h, hfirst, rfl, rfl⟩
    rw [solve_of_firstRepeated hlen hfirst]

/-- Solves that find the same function for every call differ in nothing but the pool. -/
theorem solve_of_lookups {registry' : Registry} {functions : List HintFunction}
    {t t' : HintTable}
    (htable : hintTable registry { options with hintFunctions := functions } = .ok t)
    (htable' : hintTable registry' options = .ok t')
    (hfind : ∀ e ∈ s.hints.entries, t.find? e.2.id = t'.find? e.2.id) :
    (s.solve assignment registry { options with hintFunctions := functions }).SameButPool
      (s.solve assignment registry' options) := by
  have hlookups : (s.context t).SameLookups ((s.withHints s.hints).context t') :=
    ⟨rfl, fun _ => rfl, hfind⟩
  -- the functions of the options are used for the table only
  have hsolve : ∀ start, s.solveFrom t { options with hintFunctions := functions } start =
      s.solveFrom t' options start :=
    solveFrom_congr (run_congr hlookups (fun _ => rfl) options.force)
  refine solve_related assignment (fun _ _ => ⟨rfl, rfl, rfl⟩) (.inr ⟨t, t', htable, htable', ?_⟩)
  intro solution trace _
  rw [hsolve]
  exact s.solveFrom_sameButPool t' options ⟨rfl, rfl⟩

/-- A solve with functions that were found in a registry, in the order of `found`, and with
    those of its options. -/
def solveAmong (s : Circuit c k) (assignment : List (Scalar c)) (found : List HintFunction)
    (pool : ScratchPool) (options : SolverOptions) : Report c :=
  s.solve assignment { Registry.empty with pool }
    { options with hintFunctions := found ++ options.hintFunctions }

/-- The registry lists its functions by their identifiers. -/
theorem solve_eq_solveAmong (s : Circuit c k) (assignment : List (Scalar c))
    (registry : Registry) (options : SolverOptions) :
    s.solve assignment registry options =
      s.solveAmong assignment registry.snapshot registry.pool options := rfl

/-- Functions may be kept elsewhere and in another order, and functions that no call asks
    for may join them. -/
theorem solveAmong_moved {found extra additional : List HintFunction} {pool : ScratchPool}
    (hperm : (found ++ extra).Perm
      (registry.functions ++ options.hintFunctions ++ additional))
    (hnd : ((found ++ extra).map HintFunction.id).Nodup)
    (hunused : ∀ h ∈ additional, ∀ e ∈ s.hints.entries, e.2.id ≠ h.id) :
    (s.solveAmong assignment found pool { options with hintFunctions := extra }).SameButPool
      (s.solve assignment registry options) := by
  have hall := (hperm.map HintFunction.id).nodup_iff.1 hnd
  rw [List.map_append] at hall
  have htable' := hintTable_eq_ok hall.of_append_left
  have htable : hintTable { Registry.empty with pool }
      { options with hintFunctions := found ++ extra } = .ok ⟨found ++ extra⟩ :=
    HintTable.ofList_eq_ok hnd
  refine solve_of_lookups htable htable' ?_
  intro e he
  refine HintTable.find?_congr hnd (HintTable.of_ofList htable').2 ?_
  -- an additional function is not the one that the call asks for
  intro g hg
  have hout : g ∉ additional := fun habs => hunused g habs e he hg.symm
  show g ∈ found ++ extra ↔ g ∈ registry.snapshot ++ options.hintFunctions
  rw [hperm.mem_iff, List.mem_append, List.mem_append, List.mem_append,
    registry.snapshot_perm.mem_iff]
  exact or_iff_left hout

/-- What a solve makes of the identifiers of its functions. -/
structure Identified (s : Circuit c k) (assignment : List (Scalar c)) (registry : Registry)
    (options : SolverOptions) : Prop where
  /-- The solve is refused for an identifier if and only if two functions share one. -/
  refused_iff : (∃ id name, (s.solve assignment registry options).result =
      .error (.error (.duplicateHint id name))) ↔
    ¬((registry.functions ++ options.hintFunctions).map HintFunction.id).Nodup
  /-- The first function of the options whose identifier is taken is named. -/
  named : ∀ id name, (s.solve assignment registry options).result =
      .error (.error (.duplicateHint id name)) ↔
    ∃ h, FirstRepeated registry.functions options.hintFunctions h ∧ h.id = id ∧ h.name = name
  /-- The registry lists its functions in one order, -/
  listed : s.solve assignment registry options =
    s.solveAmong assignment registry.snapshot registry.pool options
  /-- and it may list them in any other. -/
  enumerated : ∀ found pool, found.Perm registry.functions →
    (s.solveAmong assignment found pool options).SameButPool (s.solve assignment registry options)
  /-- Functions may move between the registry and the options, and functions that no call
      asks for may join them. -/
  moved : ∀ found extra additional pool,
    (found ++ extra).Perm (registry.functions ++ options.hintFunctions ++ additional) →
    ((found ++ extra).map HintFunction.id).Nodup →
    (∀ h ∈ additional, ∀ e ∈ s.hints.entries, e.2.id ≠ h.id) →
    (s.solveAmong assignment found pool { options with hintFunctions := extra }).SameButPool
      (s.solve assignment registry options)

end Circuit

open Circuit in
/-- A solve sees its functions through their identifiers only.  The functions of a registry
    have identifiers of their own. -/
theorem solve_identified (s : Circuit c k) {assignment : List (Scalar c)} {registry : Registry}
    (hlen : assignment.length = s.layout.nInputs)
    (hregistry : (registry.functions.map HintFunction.id).Nodup) (options : SolverOptions) :
    s.Identified assignment registry options := by
  constructor
  case named => exact fun id name => duplicateHint_iff hlen hregistry
  case listed => exact solve_eq_solveAmong s assignment registry options
  case moved => exact fun found extra additional pool => solveAmong_moved
  case refused_iff =>
    constructor
    · rintro ⟨id, name, hresult⟩
      obtain ⟨h, hfirst, -⟩ := (duplicateHint_iff hlen hregistry).1 hresult
      exact hfirst.not_nodup
    · intro hrepeat
      obtain ⟨h, hfirst⟩ := exists_firstRepeated hregistry hrepeat
      exact ⟨h.id, h.name, (duplicateHint_iff hlen hregistry).2 ⟨h, hfirst, rfl, rfl⟩⟩
  case enumerated =>
    intro found pool hperm
    by_cases hnd : ((registry.functions ++ options.hintFunctions).map HintFunction.id).Nodup
    · have hperm' := hperm.append_right options.hintFunctions
      have hids := (hperm'.map HintFunction.id).nodup_iff.2 hnd
      exact solveAmong_moved (by rwa [List.append_nil]) hids (by simp)
    · -- both solves are refused, and for the same function
      obtain ⟨h, hfirst⟩ := exists_firstRepeated hregistry hnd
      have hamong : s.solveAmong assignment found pool options =
          ⟨.error (.error (.duplicateHint h.id h.name)), pool, options.logger,
            #[.started k s.nWires s.nConstraints]⟩ :=
        solve_of_firstRepeated hlen (hfirst.of_perm hperm.symm).joined
      rw [hamong, solve_of_firstRepeated hlen hfirst]
      exact ⟨rfl, rfl, rfl⟩

/-- The successor under an identifier that no call of the sample asks for. -/
def HintFunction.idle : HintFunction := { HintFunction.successor with id := ⟨9⟩ }

/-- Two functions move from the registry to the options, where an idle one joins them; and
    a function whose identifier is registered is refused. -/
theorem solve_identified_sample :
    [(9 : Scalar .bn254), 2].length = Circuit.sample.layout.nInputs ∧
      (Registry.used.functions.map HintFunction.id).Nodup ∧
      (∃ w, (Circuit.sample.solve [9, 2] .empty
          (SolverOptions.standard.withoutOutput.withHints
            (.idle :: Registry.used.functions.reverse))).result = .ok w ∧
        w.values = #[1, 9, 2, 3, 9]) ∧
      (Circuit.sample.solve [9, 2] .used
          (SolverOptions.standard.withoutOutput.withHints [.idle, .successor])).result =
        .error (.error (.duplicateHint ⟨7⟩ "successor")) := by
  have hlen : [(9 : Scalar .bn254), 2].length = Circuit.sample.layout.nInputs := rfl
  have hused : (Registry.used.functions.map HintFunction.id).Nodup := by decide
  refine ⟨hlen, hused, ?_, ?_⟩
  · have hmoved := (solve_identified Circuit.sample hlen hused
      SolverOptions.standard.withoutOutput).moved [] (.idle :: Registry.used.functions.reverse)
      [.idle] default ?_ (by decide) (by decide)
    · obtain ⟨w, hw, hvalues⟩ : ∃ w, (Circuit.sample.solve [9, 2] .used
          SolverOptions.standard.withoutOutput).result = .ok w ∧ w.values = #[1, 9, 2, 3, 9] := by
        apply exists_ok_of_toOption
        decide +kernel
      exact ⟨w, hmoved.result_eq.trans hw, hvalues⟩
    · exact .trans (.cons _ (List.reverse_perm _)) (List.perm_append_singleton ..).symm
  · apply ((solve_identified Circuit.sample hlen hused _).named ⟨7⟩ "successor").2
    exact ⟨.successor, ⟨[.idle], [], rfl, by decide, by decide⟩, rfl, rfl⟩

end CircuitWitness
