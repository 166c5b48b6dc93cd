import CircuitWitness.Proofs.Circuit.Construction

/-! # Every wire has one producer

    Calls are added to a hint map one after another, and some of them are refused.
    A call is entered under each of its wires, so the map must not end up with one
    half of a call: the wires are all checked before the first of them is entered
    (`HintMap.addInPlace`), and a call that is refused for its last wire leaves no
    trace.  After any such history every wire of the map belongs to one accepted
    call, and every accepted call is found again at the first of its wires.
-/

namespace CircuitWitness

namespace HintMap

/-! ## The wire that a call is refused for -/

/-- The wire at a position is among `taken`, or stood before. -/
def TakenAt (taken wires : List WireId) (i : Nat) : Prop :=
  ∃ w, wires[i]? = some w ∧ (w ∈ taken ∨ w ∈ wires.take i)

section TakenAt

variable {taken rest : List WireId} {w u : WireId}

theorem takenAt_zero : TakenAt taken (w :: rest) 0 ↔ w ∈ taken := by
  simp [TakenAt]

/-- For those after it a wire is one more that is taken. -/
theorem takenAt_succ {i : Nat} :
    TakenAt taken (w :: rest) (i + 1) ↔ TakenAt (w :: taken) rest i := by
  unfold TakenAt
  rw [List.getElem?_cons_succ, List.take_succ_cons]
  apply exists_congr
  intro u
  rw [List.mem_cons, List.mem_cons, ← or_assoc, or_comm (a := u ∈ taken)]

/-- What is found is the first wire that is taken. -/
theorem firstTaken_eq_some_iff {wires : List WireId} :
    firstTaken taken wires = some u ↔
      ∃ i, wires[i]? = some u ∧ TakenAt taken wires i ∧ ∀ j < i, ¬TakenAt taken wires j := by
  induction wires generalizing taken with
  | nil => simp [firstTaken]
  | cons w rest ih =>
    rw [firstTaken]
    -- the first wire is taken, or the first one taken is among the rest, one place on
    by_cases hmem : w ∈ taken
    · rw [if_pos hmem]
      constructor
      · intro h
        cases h
        exact ⟨0, rfl, takenAt_zero.2 hmem, fun j hj => absurd hj (Nat.not_lt_zero j)⟩
      · intro h
        obtain ⟨i, hi, -, hfirst⟩ := h
        cases i with
        | zero => exact hi
        | succ i => exact absurd (takenAt_zero.2 hmem) (hfirst 0 (Nat.succ_pos i))
    · rw [if_neg hmem, ih]
      constructor
      · intro h
        obtain ⟨i, hi, htaken, hfirst⟩ := h
        refine ⟨i + 1, hi, takenAt_succ.2 htaken, ?_⟩
        intro j hj
        cases j with
        | zero => exact mt takenAt_zero.1 hmem
        | succ j => exact mt takenAt_succ.1 (hfirst j (Nat.lt_of_succ_lt_succ hj))
      · intro h
        obtain ⟨i, hi, htaken, hfirst⟩ := h
        cases i with
        | zero => exact absurd (takenAt_zero.1 htaken) hmem
        | succ i =>
          refine ⟨i, hi, takenAt_succ.1 htaken, ?_⟩
          intro j hj
          exact mt takenAt_succ.2 (hfirst (j + 1) (Nat.succ_lt_succ hj))

end TakenAt

variable {m m' : HintMap} {call : HintCall} {e : CircuitError}

/-- A call is refused if one of its wires has a producer or is listed twice. -/
theorem exists_add_eq_error_iff :
    (∃ e, m.add call = .error e) ↔ (∃ w ∈ call.wires, w ∈ m.wires) ∨ ¬call.wires.Nodup := by
  have htaken : (∃ e, m.add call = .error e) ↔ ¬firstTaken m.wires call.wires = none := by
    unfold add
    cases firstTaken m.wires call.wires with
    | none => simp
    | some w => simp
  rw [htaken, firstTaken_eq_none_iff, not_and_or, or_comm]
  simp only [not_forall, not_not, exists_prop]

/-- The error names the first wire that has a producer or was listed before. -/
theorem add_eq_error_iff :
    m.add call = .error e ↔ ∃ i w, call.wires[i]? = some w ∧ TakenAt m.wires call.wires i ∧
      (∀ j < i, ¬TakenAt m.wires call.wires j) ∧ e = .hintWireMappedTwice w := by
  have htaken : m.add call = .error e ↔
      ∃ w, firstTaken m.wires call.wires = some w ∧ e = .hintWireMappedTwice w := by
    unfold add
    cases firstTaken m.wires call.wires with
    | none => simp
    | some w => simp [eq_comm]
  rw [htaken]
  constructor
  · -- the wire found first is the one at the first position that is taken
    rintro ⟨w, hw, rfl⟩
    obtain ⟨i, hi, hat, hfirst⟩ := firstTaken_eq_some_iff.1 hw
    exact ⟨i, w, hi, hat, hfirst, rfl⟩
  · rintro ⟨i, w, hi, hat, hfirst, rfl⟩
    exact ⟨w, firstTaken_eq_some_iff.2 ⟨i, hi, hat, hfirst⟩, rfl⟩

theorem add_eq_ok_iff :
    m.add call = .ok m' ↔ firstTaken m.wires call.wires = none ∧ m' = m.assignAll call := by
  unfold add
  cases firstTaken m.wires call.wires with
  | none => simp [eq_comm]
  | some w => simp

theorem mem_wires_iff {w : WireId} : w ∈ m.wires ↔ ∃ call, m.producer? w = some call := by
  rw [← Option.isSome_iff_exists, ← not_iff_not, producer?, Option.not_isSome_iff_eq_none,
    List.lookup_eq_none_iff, wires, List.mem_map]
  constructor
  · intro h entry hentry
    have hne : w ≠ entry.1 := fun heq => h ⟨entry, hentry, heq.symm⟩
    simpa using hne
  · rintro h ⟨entry, hentry, rfl⟩
    simpa using h entry hentry

/-! ## Adding a call in place -/

/-- A program on a map that it changes as it goes.  Where it stops, the map stays as it
    is then. -/
abbrev Edit (α : Type) := ExceptT CircuitError (StateM HintMap) α

/-- The outcome of a program, and the map that it leaves. -/
def Edit.exec {α : Type} (x : Edit α) (m : HintMap) : Except CircuitError α × HintMap :=
  x.run.run m

/-- Checks wires one after another; `seen` lists those that came before. -/
def checkWires (seen : List WireId) : List WireId → Edit Unit
  | [] => pure ()
  | w :: rest => do
    if w ∈ seen ++ (← get).wires then throw (.hintWireMappedTwice w)
    else checkWires (w :: seen) rest

/-- Enters a call under wires, one after another. -/
def enterWires (call : HintCall) : List WireId → Edit Unit
  | [] => pure ()
  | w :: rest => do
    modify fun m => m.assign w call
    enterWires call rest

/-- Checks all wires of a call, and then enters it under them. -/
def addInPlace (call : HintCall) : Edit Unit := do
  checkWires [] call.wires
  enterWires call call.wires

theorem Edit.exec_bind {α β : Type} (x : Edit α) (f : α → Edit β) (m : HintMap) :
    (x >>= f).exec m =
      match x.exec m with
      | (.ok a, mid) => (f a).exec mid
      | (.error e, mid) => (.error e, mid) := by
  show (ExceptT.run (x >>= f)).run m = _
  rw [ExceptT.run_bind]
  simp only [exec, StateT.run_bind]
  cases h : x.run.run m with
  | mk r mid => cases r <;> rfl

/-- The check only reads the map. -/
theorem exec_checkWires (seen wires : List WireId) (m : HintMap) :
    (checkWires seen wires).exec m =
      match firstTaken (seen ++ m.wires) wires with
      | some w => (.error (.hintWireMappedTwice w), m)
      | none => (.ok (), m) := by
  induction wires generalizing seen with
  | nil => rfl
  | cons w rest ih =>
    have hrest := ih (w :: seen)
    rw [List.cons_append] at hrest
    show Edit.exec (if w ∈ seen ++ m.wires then throw (.hintWireMappedTwice w)
      else checkWires (w :: seen) rest) m = _
    rw [firstTaken]
    -- the wires before are checked as well, so that each is looked for among them
    by_cases hmem : w ∈ seen ++ m.wires
    · rw [if_pos hmem, if_pos hmem]
      rfl
    · rw [if_neg hmem, if_neg hmem]
      exact hrest

theorem exec_enterWires (call : HintCall) (wires : List WireId) (m : HintMap) :
    (enterWires call wires).exec m =
      (.ok (), wires.foldl (fun m w => m.assign w call) m) := by
  induction wires generalizing m with
  | nil => rfl
  | cons w rest ih => exact ih (m.assign w call)

/-- A call that is refused leaves the map as it was. -/
theorem exec_addInPlace (call : HintCall) (m : HintMap) :
    (addInPlace call).exec m =
      match m.add call with
      | .ok m' => (.ok (), m')
      | .error e => (.error e, m) := by
  rw [addInPlace, Edit.exec_bind, exec_checkWires, List.nil_append, add]
  cases firstTaken m.wires call.wires with
  | none => exact exec_enterWires call call.wires m
  | some w => rfl

/-- An accepted call is found under its wires, and under the others what was found before. -/
theorem producer?_add (h : m.add call = .ok m') (w : WireId) :
    m'.producer? w = if w ∈ call.wires then some call else m.producer? w := by
  obtain ⟨-, rfl⟩ := add_eq_ok_iff.1 h
  clear h
  unfold assignAll
  generalize call.wires = wires
  -- a call is entered at its wires one by one, and a later entry hides no earlier one
  induction wires generalizing m with
  | nil => simp
  | cons u rest ih =>
    rw [List.foldl_cons, ih]
    by_cases hrest : w ∈ rest
    · rw [if_pos hrest, if_pos (List.mem_cons_of_mem u hrest)]
    · rw [if_neg hrest]
      by_cases heq : w = u
      · rw [heq, producer?_assign_self, if_pos List.mem_cons_self]
      · rw [producer?_assign_ne m heq, if_neg (by simp [heq, hrest])]

/-! ## Histories -/

/-- The map after calls were offered to it, one after another. -/
def offerAll (m : HintMap) (offered : List HintCall) : HintMap :=
  offered.foldl (fun m call => ((addInPlace call).exec m).2) m

/-- Those of the offered calls that were accepted. -/
def accepted (m : HintMap) : List HintCall → List HintCall
  | [] => []
  | call :: rest =>
    match m.add call with
    | .ok m' => call :: m'.accepted rest
    | .error _ => m.accepted rest

theorem Represents.offerAll {calls : List HintCall} (h : m.Represents calls)
    (offered : List HintCall) :
    (m.offerAll offered).Represents (calls ++ m.accepted offered) := by
  induction offered generalizing m calls with
  | nil =>
    rw [accepted, List.append_nil]
    exact h
  | cons call rest ih =>
    rw [HintMap.offerAll, List.foldl_cons, ← HintMap.offerAll, exec_addInPlace, accepted]
    -- a refused call leaves the map, which then represents the same calls
    cases hadd : m.add call with
    | ok m' =>
      have hrest := ih (h.add hadd)
      rw [List.append_assoc] at hrest
      exact hrest
    | error e => exact ih h

/-- No call is listed twice, because no wire is. -/
theorem Represents.nodup_calls {calls : List HintCall} (h : m.Represents calls) :
    m.calls.Nodup := by
  have hdisjoint := (List.nodup_flatMap.1 h.nodup).2
  rw [h.calls_eq]
  refine (hdisjoint.filter _).imp_of_mem ?_
  intro call call' hcall _ hapart heq
  obtain ⟨-, hsome⟩ := List.mem_filter.1 hcall
  -- calls with a common wire are the same one, and a listed call has a wire
  cases hws : call.wires with
  | nil =>
    rw [hws] at hsome
    cases hsome
  | cons w rest =>
    have hw : w ∈ call.wires := hws ▸ List.mem_cons_self
    exact hapart hw (heq ▸ hw)

/-- What can be seen of a map that accepted these calls. -/
structure Records (m : HintMap) (accepted : List HintCall) : Prop where
  mem_wires_iff : ∀ {w}, w ∈ m.wires ↔ ∃ call, m.producer? w = some call
  /-- A call is refused if one of its wires has a producer or is listed twice. -/
  refused_iff : ∀ {call}, (∃ e, m.add call = .error e) ↔
    (∃ w ∈ call.wires, w ∈ m.wires) ∨ ¬call.wires.Nodup
  /-- The error names the first wire that has a producer or was listed before. -/
  add_eq_error_iff : ∀ {call e}, m.add call = .error e ↔ ∃ i w, call.wires[i]? = some w ∧
    TakenAt m.wires call.wires i ∧ (∀ j < i, ¬TakenAt m.wires call.wires j) ∧
    e = .hintWireMappedTwice w
  refused : ∀ {call e}, m.add call = .error e → (addInPlace call).exec m = (.error e, m)
  entered : ∀ {call m'}, m.add call = .ok m' → (addInPlace call).exec m = (.ok (), m') ∧
    ∀ w, m'.producer? w = if w ∈ call.wires then some call else m.producer? w
  listed_once : ∀ {w call}, m.producer? w = some call →
    call ∈ accepted ∧ call.wires.count w = 1
  wires_eq : m.wires = accepted.flatMap HintCall.wires
  nodup_wires : m.wires.Nodup
  /-- In whatever order the entries are read, every accepted call with a wire is listed, and
      no other. -/
  calls_perm : ∀ {m' : HintMap}, m'.entries.Perm m.entries →
    m'.calls.Perm (accepted.filter fun call => !call.wires.isEmpty)
  nodup_calls : m.calls.Nodup

end HintMap

open HintMap in
/-- Whatever calls were offered to a hint map, it records those that were accepted. -/
theorem hint_calls_recorded (offered : List HintCall) :
    (HintMap.empty.offerAll offered).Records (HintMap.empty.accepted offered) := by
  have hrep := represents_empty.offerAll offered
  rw [List.nil_append] at hrep
  generalize HintMap.empty.offerAll offered = m at hrep
  generalize HintMap.empty.accepted offered = accepted at hrep
  refine ⟨HintMap.mem_wires_iff, exists_add_eq_error_iff, HintMap.add_eq_error_iff, ?_, ?_, ?_,
    hrep.wires_eq, hrep.nodup_map_fst, ?_, hrep.nodup_calls⟩
  · intro call e h
    rw [exec_addInPlace, h]
  · intro call m' h
    refine ⟨?_, producer?_add h⟩
    rw [exec_addInPlace, h]
  · intro w call h
    obtain ⟨hcall, hw⟩ := hrep.producer?_eq_some_iff.1 h
    exact ⟨hcall, List.count_eq_one_of_mem (hrep.nodup_wires hcall) hw⟩
  · intro m' hperm
    rw [← hrep.calls_eq]
    exact hperm.filterMap _

/-- The second call is refused for its last wire, and its first one stays free. -/
example :
    let first : HintCall := ⟨⟨7⟩, [], [⟨3⟩, ⟨4⟩]⟩
    let second : HintCall := ⟨⟨8⟩, [], [⟨5⟩, ⟨4⟩]⟩
    let m := HintMap.empty.offerAll [first, second]
    m.wires = [⟨3⟩, ⟨4⟩] ∧ m.calls = [first] := by
  decide

end CircuitWitness
