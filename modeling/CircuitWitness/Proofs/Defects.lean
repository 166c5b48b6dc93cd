import CircuitWitness.Proofs.Circuit.Construction
import CircuitWitness.Proofs.Circuit.WellFormed

/-! # Defects of a circuit

    Anything can be put into a circuit while it is built, so it may refer to what is
    not there.  Validation accepts the circuits that do not (`Circuit.Intact`), in
    whatever order the maps of the circuit list their entries.  A hint call is found
    in the map once for each of its wires and is checked once; one without wires
    left no trace and is not checked.

    The gates are checked before everything that a map lists.  So if a gate has a
    defect, what is reported is the first defect of the first such gate
    (`Circuit.FirstDefect`).
-/

namespace CircuitWitness

variable {c : Curve} {k : Kind}

/-! ## What a circuit refers to -/

namespace Circuit

/-- A circuit that accepted these calls has the term in a gate, in an input of a call with a
    wire, or in a line or a diagnostic; delimiters are no terms. -/
inductive Mentions (s : Circuit c k) (calls : List HintCall) : Term → Prop where
  | gate {g : Gate k} {t : Term} (hgate : g ∈ s.gates) (hterm : t ∈ g.terms) : Mentions s calls t
  | input {call : HintCall} {lc : LinearCombination} {t : Term} (hcall : call ∈ calls)
      (hwires : call.wires ≠ []) (hinput : lc ∈ call.inputs) (hterm : t ∈ lc.terms) :
      Mentions s calls t
  | log {entry : LogEntry} {t : Term} (hentry : entry ∈ s.logs) (hterm : t ∈ entry.terms)
      (hreal : t ≠ .delimiter) : Mentions s calls t
  | diagnostic {index : Nat} {entry : LogEntry} {t : Term}
      (hentry : s.debugInfo? index = some entry) (hterm : t ∈ entry.terms)
      (hreal : t ≠ .delimiter) : Mentions s calls t

/-- Whatever a circuit that accepted these calls refers to is there. -/
structure Intact (s : Circuit c k) (calls : List HintCall) : Prop where
  oneWire : 0 < s.layout.nPublic
  terms : ∀ t, s.Mentions calls t → s.Fits t
  constants : ∀ g ∈ s.gates, ∀ id ∈ g.extraCoefficients, id.index < s.table.size
  outputs : ∀ call ∈ calls, ∀ w ∈ call.wires, s.layout.visibility? w = some .internal
  diagnostics : ∀ index entry, s.debugInfo? index = some entry → index < s.nConstraints

/-- The circuit with the entries of its hint map and of its diagnostics listed like this. -/
def relisted (s : Circuit c k) (m : HintMap) (d : List (Nat × LogEntry)) : Circuit c k :=
  { s with hints := m, debugInfo := d }

section Intact

variable {s : Circuit c k} {calls : List HintCall} {m : HintMap} {d : List (Nat × LogEntry)}

theorem callFits_iff (hrep : s.hints.Represents calls) (hm : m.entries.Perm s.hints.entries) :
    (∀ call ∈ m.calls, s.CallFits call) ↔
      ∀ call ∈ calls, call.wires ≠ [] → s.CallFits call := by
  have hcalls : m.calls.Perm s.hints.calls := hm.filterMap _
  simp only [hcalls.mem_iff, hrep.mem_calls_iff, and_imp]

theorem entryFits_iff {entry : LogEntry} :
    s.EntryFits entry ↔ ∀ t ∈ entry.terms, t ≠ .delimiter → s.Fits t := by
  simp [EntryFits, Term.isDelimiter]

/-- The order in which the maps list their entries does not matter to what fits. -/
theorem wellFormed_relisted_iff (hbuilt : Built calls s)
    (hm : m.entries.Perm s.hints.entries) (hd : d.Perm s.debugInfo) :
    (s.relisted m d).WellFormed ↔ s.Intact calls := by
  have hcalls := callFits_iff hbuilt.represents hm
  have hdiagnostic : ∀ {index entry}, s.debugInfo? index = some entry ↔ (index, entry) ∈ d := by
    intro index entry
    rw [hd.mem_iff]
    exact Assoc.lookup_eq_some_iff_mem hbuilt.nodup_debugInfo
  -- the checks are made place by place, and what is intact is all terms wherever they stand
  constructor
  · intro h
    have hfits := hcalls.1 h.calls
    refine ⟨h.oneWire, ?_, ?_, ?_, ?_⟩
    · intro t ht
      cases ht with
      | gate hgate hterm => exact (h.gates _ (Array.mem_def.1 hgate)).1 t hterm
      | input hcall hwires hinput hterm => exact (hfits _ hcall hwires).1 _ hinput t hterm
      | log hentry hterm hreal =>
        exact entryFits_iff.1 (h.logs _ (Array.mem_def.1 hentry)) t hterm hreal
      | diagnostic hentry hterm hreal =>
        exact entryFits_iff.1 (h.debugInfo _ (hdiagnostic.1 hentry)).2 t hterm hreal
    · intro g hg
      exact (h.gates g (Array.mem_def.1 hg)).2
    · intro call hcall w hw
      exact (hfits call hcall (List.ne_nil_of_mem hw)).2 w hw
    · intro index entry hentry
      exact (h.debugInfo _ (hdiagnostic.1 hentry)).1
  · intro h
    refine ⟨h.oneWire, ?_, hcalls.2 ?_, ?_, ?_⟩
    · intro g hg
      have hgate : g ∈ s.gates := Array.mem_def.2 hg
      exact ⟨fun t ht => h.terms t (.gate hgate ht), h.constants g hgate⟩
    · intro call hcall hwires
      exact ⟨fun lc hlc t ht => h.terms t (.input hcall hwires hlc ht), h.outputs call hcall⟩
    · intro entry hentry
      exact entryFits_iff.2 fun t ht hreal => h.terms t (.log (Array.mem_def.2 hentry) ht hreal)
    · rintro ⟨index, entry⟩ hentry
      have hfound := hdiagnostic.2 hentry
      exact ⟨h.diagnostics index entry hfound,
        entryFits_iff.2 fun t ht hreal => h.terms t (.diagnostic hfound ht hreal)⟩

end Intact

end Circuit

/-! ## The first defect -/

/-- What a gate refers to. -/
inductive Reference where
  | term (t : Term)
  | constant (id : CoeffId)

/-- What the gate refers to, in visiting order. -/
def Gate.references (g : Gate k) : List Reference :=
  g.terms.map .term ++ g.extraCoefficients.map .constant

namespace Circuit

/-- What is referred to is there. -/
def Resolves (s : Circuit c k) : Reference → Prop
  | .term t => s.Fits t
  | .constant id => id.index < s.table.size

/-- What is wrong with a reference, said of a place.  A term is looked at from its
    coefficient to its visibility, and only its first defect counts. -/
inductive Defect (s : Circuit c k) (location : Location) (index : Nat) :
    Reference → CircuitError → Prop where
  | unknownCoefficient {t : Term} (hcoeff : s.table.size ≤ t.coeff.index) :
      Defect s location index (.term t) (.unknownCoefficient location index t.coeff s.table.size)
  | outOfRange {t : Term} (hcoeff : t.coeff.index < s.table.size) (hreal : t.isVirtual = false)
      (hwire : s.nWires ≤ t.wire.index) :
      Defect s location index (.term t) (.outOfRangeWire location index t.wire s.nWires)
  | mismatch {t : Term} {expected : Visibility} (hcoeff : t.coeff.index < s.table.size)
      (hreal : t.isVirtual = false) (hwire : s.layout.visibility? t.wire = some expected)
      (hne : expected ≠ t.visibility) :
      Defect s location index (.term t)
        (.visibilityMismatch location index t.wire expected t.visibility)
  | unknownConstant {id : CoeffId} (hid : s.table.size ≤ id.index) :
      Defect s location index (.constant id) (.unknownCoefficient location index id s.table.size)

/-- The error is the first defect of the first gate that has one, in visiting order. -/
def FirstDefect (s : Circuit c k) (e : CircuitError) : Prop :=
  ∃ before g after, s.gates.toList = before ++ g :: after ∧ (∀ b ∈ before, s.GateFits b) ∧
    ∃ earlier r later, g.references = earlier ++ r :: later ∧ (∀ q ∈ earlier, s.Resolves q) ∧
      s.Defect (.gate k) before.length r e

section FirstDefect

variable {s : Circuit c k} {location : Location} {index : Nat} {e : CircuitError}

/-- Checks a reference. -/
def validateReference (s : Circuit c k) (location : Location) (index : Nat) :
    Reference → Except CircuitError Unit
  | .term t => s.validateTerm location index t
  | .constant id => s.validateCoeff location index id

theorem validateReference_eq_ok_iff {r : Reference} :
    s.validateReference location index r = .ok () ↔ s.Resolves r := by
  cases r with
  | term t => exact validateTerm_eq_ok_iff
  | constant id => exact validateCoeff_eq_ok_iff

theorem validateCoeff_eq_error_iff {id : CoeffId} :
    s.validateCoeff location index id = .error e ↔
      s.table.size ≤ id.index ∧ e = .unknownCoefficient location index id s.table.size := by
  unfold validateCoeff CoefficientTable.isValid CoefficientTable.size
  by_cases h : id.index < s.table.values.size
  · simp [h]
  · simp [h, Nat.le_of_not_lt h, eq_comm]

theorem validateTerm_eq_error_iff {t : Term} :
    s.validateTerm location index t = .error e ↔ s.Defect location index (.term t) e := by
  unfold validateTerm
  rw [check_bind_eq_error_iff, validateCoeff_eq_error_iff, validateCoeff_eq_ok_iff]
  constructor
  · rintro (⟨hcoeff, rfl⟩ | ⟨hcoeff, hwire⟩)
    · exact .unknownCoefficient hcoeff
    · -- the coefficient is in the table, so that it is the wire which is refused
      cases hvirt : t.isVirtual with
      | true =>
        rw [hvirt] at hwire
        cases hwire
      | false =>
        rw [hvirt, if_neg (by decide)] at hwire
        cases hvis : s.layout.visibility? t.wire with
        | none =>
          rw [hvis] at hwire
          cases hwire
          exact .outOfRange hcoeff hvirt (Layout.visibility?_eq_none_iff.1 hvis)
        | some expected =>
          simp only [hvis] at hwire
          split at hwire
          · rename_i hne
            cases hwire
            exact .mismatch hcoeff hvirt hvis hne
          · cases hwire
  · intro h
    cases h with
    | unknownCoefficient hcoeff => exact .inl ⟨hcoeff, rfl⟩
    | outOfRange hcoeff hreal hwire =>
      refine .inr ⟨hcoeff, ?_⟩
      rw [hreal, if_neg (by decide), Layout.visibility?_eq_none_iff.2 hwire]
      rfl
    | mismatch hcoeff hreal hwire hne =>
      refine .inr ⟨hcoeff, ?_⟩
      simp only [hreal, Bool.false_eq_true, if_false, hwire]
      rw [if_pos hne]
      rfl

theorem validateReference_eq_error_iff {r : Reference} :
    s.validateReference location index r = .error e ↔ s.Defect location index r e := by
  cases r with
  | term t => exact validateTerm_eq_error_iff
  | constant id =>
    refine validateCoeff_eq_error_iff.trans ⟨?_, ?_⟩
    · rintro ⟨hid, rfl⟩
      exact .unknownConstant hid
    · intro h
      cases h with
      | unknownConstant hid => exact ⟨hid, rfl⟩

/-- A gate is checked by checking what it refers to. -/
theorem validateGate_eq_forM (s : Circuit c k) (index : Nat) (g : Gate k) :
    s.validateGate index g = g.references.forM (s.validateReference (.gate k) index) := by
  have hterms : (g.terms.map Reference.term).forM (s.validateReference (.gate k) index) =
      g.terms.forM (s.validateTerm (.gate k) index) := List.forM_map
  have hconstants :
      (g.extraCoefficients.map Reference.constant).forM (s.validateReference (.gate k) index) =
        g.extraCoefficients.forM (s.validateCoeff (.gate k) index) := List.forM_map
  rw [validateGate, ← hterms, ← hconstants]
  exact List.forM_append.symm

theorem validateGate_eq_error_iff {g : Gate k} :
    s.validateGate index g = .error e ↔ ∃ earlier r later,
      g.references = earlier ++ r :: later ∧ (∀ q ∈ earlier, s.Resolves q) ∧
        s.Defect (.gate k) index r e := by
  rw [validateGate_eq_forM, forM_eq_error_iff]
  simp only [validateReference_eq_ok_iff, validateReference_eq_error_iff]

theorem forM_validateGate_eq_error_iff :
    (s.gates.toList.zipIdx.forM fun (g, i) => s.validateGate i g) = .error e ↔
      s.FirstDefect e := by
  rw [forM_zipIdx_eq_error_iff fun _ _ => validateGate_eq_ok_iff]
  simp only [validateGate_eq_error_iff]
  rfl

/-- The maps of the circuit are not looked at. -/
theorem FirstDefect.of_relisted {m : HintMap} {d : List (Nat × LogEntry)}
    (h : (s.relisted m d).FirstDefect e) : s.FirstDefect e := by
  obtain ⟨before, g, after, hgates, hbefore, earlier, r, later, hrefs, hearlier, hdefect⟩ := h
  refine ⟨before, g, after, hgates, hbefore, earlier, r, later, hrefs, ?_, ?_⟩
  · intro q hq
    cases q with
    | term t => exact hearlier _ hq
    | constant id => exact hearlier _ hq
  · cases hdefect with
    | unknownCoefficient hcoeff => exact .unknownCoefficient hcoeff
    | outOfRange hcoeff hreal hwire => exact .outOfRange hcoeff hreal hwire
    | mismatch hcoeff hreal hwire hne => exact .mismatch hcoeff hreal hwire hne
    | unknownConstant hid => exact .unknownConstant hid

/-- A gate with a defect is reported before anything else that is wrong. -/
theorem exists_validate_eq_error (hone : 0 < s.layout.nPublic)
    (hdefective : ∃ g ∈ s.gates, ¬s.GateFits g) :
    ∃ e, s.validate = .error e ∧ s.FirstDefect e := by
  obtain ⟨g, hg, hbad⟩ := hdefective
  cases hgates : s.gates.toList.zipIdx.forM fun (g, i) => s.validateGate i g with
  | ok u =>
    have hall := (forM_zipIdx_eq_ok_iff fun _ _ => validateGate_eq_ok_iff).1 hgates
    exact absurd (hall g (Array.mem_def.1 hg)) hbad
  | error e =>
    refine ⟨e, ?_, forM_validateGate_eq_error_iff.1 hgates⟩
    rw [validate, if_neg (Nat.ne_of_gt hone), hgates]
    rfl

end FirstDefect

end Circuit

/-! ## Validation -/

open Circuit in
/-- A circuit that was built is accepted if and only if it refers to nothing that is not
    there, whatever the order in which its maps are listed.  If a gate has a defect, the first
    defect of the first such gate is reported. -/
theorem validate_judges {calls : List HintCall} {s : Circuit c k} (hbuilt : Built calls s)
    {m : HintMap} {d : List (Nat × LogEntry)} (hm : m.entries.Perm s.hints.entries)
    (hd : d.Perm s.debugInfo) :
    ((s.relisted m d).validate = .ok () ↔ s.Intact calls) ∧
      (0 < s.layout.nPublic → (∃ g ∈ s.gates, ¬s.GateFits g) →
        ∃ e, (s.relisted m d).validate = .error e ∧ s.FirstDefect e) := by
  constructor
  · rw [validate_eq_ok_iff]
    exact wellFormed_relisted_iff hbuilt hm hd
  · intro hone hdefective
    obtain ⟨e, he, hfirst⟩ := (s.relisted m d).exists_validate_eq_error hone hdefective
    exact ⟨e, he, hfirst.of_relisted⟩

/-- A call without inputs for a wire. -/
def HintCall.source (w : WireId) : HintCall := ⟨⟨7⟩, [], [w]⟩

/-- The sum of two wires and a constant has to be zero. -/
def Gate.sum (a b : WireId) (id k : CoeffId) : Gate .sparse :=
  .sparse ⟨⟨.one, a, .pub⟩, ⟨.one, b, .pub⟩, .constant id, .constant .zero, .constant .zero, k⟩

/-- The second gate takes the secret wire for a public one, has a coefficient that is not in
    the table, and adds a constant that is not either.  One diagnostic belongs to no gate. -/
def Circuit.malformed : Circuit .bn254 .sparse where
  layout := ⟨1, 1, 2⟩
  table := .new
  gates := #[.sum .one .one .zero .zero, .sum .one ⟨1⟩ ⟨9⟩ ⟨7⟩]
  hints := ⟨[(⟨2⟩, .source ⟨2⟩), (⟨3⟩, .source ⟨3⟩)]⟩
  logs := #[]
  debugInfo := [(5, ⟨"", []⟩), (1, ⟨"", [.delimiter]⟩)]

theorem Circuit.built_malformed : Built [.source ⟨2⟩, .source ⟨3⟩] malformed := by
  have hnew : Built [] (.new ⟨1, 1, 2⟩ : Circuit .bn254 .sparse) := .new _
  have hcalls := (hnew.addHint (.source ⟨2⟩) rfl).addHint (.source ⟨3⟩) rfl
  have hgates := (hcalls.addConstraint (.sum .one .one .zero .zero)).addConstraint
    (.sum .one ⟨1⟩ ⟨9⟩ ⟨7⟩)
  exact (hgates.attachDebugInfo 5 ⟨"", []⟩).attachDebugInfo 1 ⟨"", [.delimiter]⟩

open Circuit in
/-- The wrong tag comes first, whatever the order in which the maps are listed. -/
theorem validate_judges_sample :
    Built [.source ⟨2⟩, .source ⟨3⟩] malformed ∧
      malformed.FirstDefect (.visibilityMismatch (.gate .sparse) 1 ⟨1⟩ .secret .pub) ∧
      ¬malformed.Intact [.source ⟨2⟩, .source ⟨3⟩] := by
  obtain ⟨haccepted, hreported⟩ := validate_judges built_malformed
    (m := ⟨malformed.hints.entries.reverse⟩) (d := malformed.debugInfo.reverse)
    (List.reverse_perm _) (List.reverse_perm _)
  have hvalidate : (malformed.relisted ⟨malformed.hints.entries.reverse⟩
      malformed.debugInfo.reverse).validate =
        .error (.visibilityMismatch (.gate .sparse) 1 ⟨1⟩ .secret .pub) := rfl
  -- the second gate has a wire with the wrong tag
  have hdefective : ∃ g ∈ malformed.gates, ¬malformed.GateFits g := by
    refine ⟨.sum .one ⟨1⟩ ⟨9⟩ ⟨7⟩, by simp [malformed], ?_⟩
    intro hfits
    have habs : malformed.validateGate 1 (.sum .one ⟨1⟩ ⟨9⟩ ⟨7⟩) = .ok () :=
      validateGate_eq_ok_iff.2 hfits
    cases habs
  obtain ⟨e, he, hfirst⟩ := hreported (by decide) hdefective
  rw [hvalidate] at he haccepted
  cases he
  refine ⟨built_malformed, hfirst, ?_⟩
  intro hintact
  cases haccepted.2 hintact

end CircuitWitness
