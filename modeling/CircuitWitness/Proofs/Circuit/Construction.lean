import CircuitWitness.Circuit.Basic
import CircuitWitness.Proofs.Fallible
import Mathlib.Data.List.Nodup

/-! # Circuits that were built

    A circuit is built from a layout by interning constants and adding gates,
    hint calls, log lines and diagnostics.  A hint call is accepted only if none
    of its wires has a producer yet, so the hint map of a built circuit lists
    the wires of the accepted calls, call by call, and no wire twice.
-/

namespace CircuitWitness

variable {c : Curve} {k : Kind}

namespace Assoc

theorem mem_of_lookup {κ α : Type} [DecidableEq κ] {l : List (κ × α)} {i : κ} {a : α}
    (h : l.lookup i = some a) : (i, a) ∈ l := by
  induction l with
  | nil => cases h
  | cons e rest ih =>
    obtain ⟨j, b⟩ := e
    rw [List.lookup_cons] at h
    by_cases hij : i = j
    · simp only [hij, BEq.rfl] at h
      cases h
      exact hij ▸ List.mem_cons_self
    · have hbeq : (i == j) = false := by simpa using hij
      rw [hbeq] at h
      exact List.mem_cons_of_mem _ (ih h)

theorem lookup_eq_some_iff_mem {κ α : Type} [DecidableEq κ] {l : List (κ × α)}
    (hnd : (l.map Prod.fst).Nodup) {i : κ} {a : α} : l.lookup i = some a ↔ (i, a) ∈ l := by
  induction l with
  | nil => simp
  | cons e rest ih =>
    obtain ⟨j, b⟩ := e
    rw [List.map_cons, List.nodup_cons] at hnd
    obtain ⟨hj, hrest⟩ := hnd
    rw [List.lookup_cons]
    -- keys do not repeat, so that nothing behind the entry has its key
    by_cases hij : i = j
    · subst hij
      have hout : (i, a) ∉ rest := fun h => hj (List.mem_map.2 ⟨_, h, rfl⟩)
      simp [hout, eq_comm]
    · have hbeq : (i == j) = false := by simpa using hij
      simp [hbeq, ih hrest, hij]

/-- With keys of their own, entries are found in whatever order they stand. -/
theorem lookup_perm {κ α : Type} [DecidableEq κ] {l l' : List (κ × α)} (h : l.Perm l')
    (hnd : (l.map Prod.fst).Nodup) (i : κ) : l.lookup i = l'.lookup i := by
  have hnd' := (h.map Prod.fst).nodup_iff.1 hnd
  apply Option.ext
  intro a
  rw [lookup_eq_some_iff_mem hnd, lookup_eq_some_iff_mem hnd', h.mem_iff]

/-- A key is put in place of itself, so that it is still there once. -/
theorem nodup_put {κ α : Type} [DecidableEq κ] {l : List (κ × α)} (hnd : (l.map Prod.fst).Nodup)
    (i : κ) (a : α) : ((put l i a).map Prod.fst).Nodup := by
  have herased : ((erase l i).map Prod.fst).Nodup :=
    hnd.sublist (List.filter_sublist.map Prod.fst)
  have hout : i ∉ (erase l i).map Prod.fst := by
    intro hmem
    obtain ⟨e, he, heq⟩ := List.mem_map.1 hmem
    simpa [heq] using (List.mem_filter.1 he).2
  rw [put, List.map_append]
  exact herased.append (List.nodup_singleton i) (by simpa using hout)

end Assoc

namespace HintMap

/-- The map finds exactly these calls, each under all of its wires, and no wire
    belongs to two of them. -/
structure Represents (m : HintMap) (calls : List HintCall) : Prop where
  entries : m.entries = calls.flatMap fun call => call.wires.map fun w => (w, call)
  nodup : (calls.flatMap HintCall.wires).Nodup

namespace Represents

variable {m : HintMap} {calls : List HintCall}

theorem wires_eq (h : m.Represents calls) : m.wires = calls.flatMap HintCall.wires := by
  rw [wires, h.entries, List.map_flatMap]
  simp [Function.comp_def]

theorem mem_entries_iff (h : m.Represents calls) {w : WireId} {call : HintCall} :
    (w, call) ∈ m.entries ↔ call ∈ calls ∧ w ∈ call.wires := by
  rw [h.entries]
  simp

/-- Every wire has one entry. -/
theorem nodup_map_fst (h : m.Represents calls) : (m.entries.map Prod.fst).Nodup := by
  have hwires := h.wires_eq
  unfold wires at hwires
  rw [hwires]
  exact h.nodup

theorem producer?_eq_some_iff (h : m.Represents calls) {w : WireId} {call : HintCall} :
    m.producer? w = some call ↔ call ∈ calls ∧ w ∈ call.wires := by
  rw [producer?, Assoc.lookup_eq_some_iff_mem h.nodup_map_fst, h.mem_entries_iff]

theorem producer?_eq_none_iff (h : m.Represents calls) {w : WireId} :
    m.producer? w = none ↔ ∀ call ∈ calls, w ∉ call.wires := by
  rw [Option.eq_none_iff_forall_not_mem]
  constructor
  · intro hnone call hcall hw
    exact hnone call (h.producer?_eq_some_iff.2 ⟨hcall, hw⟩)
  · intro hfree call hprod
    obtain ⟨hcall, hw⟩ := h.producer?_eq_some_iff.1 hprod
    exact hfree call hcall hw

/-- A wire has one producer. -/
theorem eq_of_mem_wires (h : m.Represents calls) {call call' : HintCall} {w : WireId}
    (hcall : call ∈ calls) (hw : w ∈ call.wires) (hcall' : call' ∈ calls)
    (hw' : w ∈ call'.wires) : call = call' := by
  have h₁ := h.producer?_eq_some_iff.2 ⟨hcall, hw⟩
  have h₂ := h.producer?_eq_some_iff.2 ⟨hcall', hw'⟩
  rw [h₁] at h₂
  exact Option.some.inj h₂

theorem nodup_wires (h : m.Represents calls) {call : HintCall} (hcall : call ∈ calls) :
    call.wires.Nodup :=
  (List.nodup_flatMap.1 h.nodup).1 call hcall

/-- The calls of the map are the accepted calls that have a wire. -/
theorem calls_eq (h : m.Represents calls) :
    m.calls = calls.filter fun call => !call.wires.isEmpty := by
  -- a call is listed at its first wire and, since its wires differ, nowhere else
  have hone : ∀ call ∈ calls, (call.wires.map fun w => (w, call)).filterMap
      (fun e => if e.2.wires.head? = some e.1 then some e.2 else none) =
        if call.wires.isEmpty then [] else [call] := by
    intro call hcall
    have hnd := h.nodup_wires hcall
    rw [List.filterMap_map]
    cases hws : call.wires with
    | nil => simp
    | cons w rest =>
      rw [hws, List.nodup_cons] at hnd
      have hrest : rest.filterMap (fun u => if some w = some u then some call else none) = [] := by
        rw [List.filterMap_eq_nil_iff]
        intro u hu
        have hne : w ≠ u := fun heq => hnd.1 (heq ▸ hu)
        simp [hne]
      simpa [Function.comp_def, hws] using hrest
  rw [HintMap.calls, h.entries, List.filterMap_flatMap]
  clear h
  induction calls with
  | nil => rfl
  | cons call rest ih =>
    rw [List.flatMap_cons, List.filter_cons, ih fun u hu => hone u (List.mem_cons_of_mem _ hu),
      hone call List.mem_cons_self]
    cases call.wires.isEmpty <;> rfl

theorem mem_calls_iff (h : m.Represents calls) {call : HintCall} :
    call ∈ m.calls ↔ call ∈ calls ∧ call.wires ≠ [] := by
  rw [h.calls_eq]
  simp

end Represents

theorem represents_empty : HintMap.empty.Represents [] := ⟨rfl, List.nodup_nil⟩

/-! ## Adding a call -/

theorem firstTaken_eq_none_iff {taken wires : List WireId} :
    firstTaken taken wires = none ↔ wires.Nodup ∧ ∀ w ∈ wires, w ∉ taken := by
  -- every wire that passes is taken for those after it
  induction wires generalizing taken with
  | nil => simp [firstTaken]
  | cons w rest ih =>
    rw [firstTaken]
    split
    · rename_i hmem
      simp [hmem]
    · rename_i hmem
      rw [ih, List.nodup_cons]
      constructor
      · intro h
        obtain ⟨hnd, hfree⟩ := h
        have hw : w ∉ rest := fun h => hfree w h List.mem_cons_self
        refine ⟨⟨hw, hnd⟩, ?_⟩
        intro u hu htaken
        rcases List.mem_cons.1 hu with rfl | hu
        · exact hmem htaken
        · exact hfree u hu (List.mem_cons_of_mem _ htaken)
      · intro h
        obtain ⟨⟨hw, hnd⟩, hfree⟩ := h
        refine ⟨hnd, ?_⟩
        intro u hu htaken
        rcases List.mem_cons.1 htaken with rfl | htaken
        · exact hw hu
        · exact hfree u (List.mem_cons_of_mem _ hu) htaken

/-- New wires are entered at the end. -/
theorem entries_assign_all (call : HintCall) (ws : List WireId) (m : HintMap) (hnd : ws.Nodup)
    (hfree : ∀ w ∈ ws, w ∉ m.wires) :
    (ws.foldl (fun m w => m.assign w call) m).entries =
      m.entries ++ ws.map fun w => (w, call) := by
  -- the wires that are left stay free, because they differ from the one entered
  induction ws generalizing m with
  | nil => simp
  | cons w rest ih =>
    rw [List.nodup_cons] at hnd
    have hput : (m.assign w call).entries = m.entries ++ [(w, call)] :=
      Assoc.put_of_not_mem (hfree w List.mem_cons_self) call
    have hrest : ∀ u ∈ rest, u ∉ (m.assign w call).wires := by
      intro u hu hmem
      rw [wires, hput, List.map_append, List.mem_append] at hmem
      rcases hmem with hmem | hmem
      · exact hfree u (List.mem_cons_of_mem _ hu) hmem
      · have hu' : u = w := by simpa using hmem
        exact hnd.1 (hu' ▸ hu)
    rw [List.foldl_cons, ih _ hnd.2 hrest, hput, List.append_assoc]
    rfl

theorem Represents.add {m m' : HintMap} {calls : List HintCall} {call : HintCall}
    (h : m.Represents calls) (hadd : m.add call = .ok m') : m'.Represents (calls ++ [call]) := by
  unfold HintMap.add at hadd
  split at hadd
  · cases hadd
  · rename_i hnone
    cases hadd
    -- the wires of the call have no producer yet, and none is listed twice
    obtain ⟨hnd, hfree⟩ := firstTaken_eq_none_iff.1 hnone
    constructor
    · rw [assignAll, entries_assign_all call call.wires m hnd hfree, h.entries]
      simp
    · rw [List.flatMap_append, List.nodup_append]
      refine ⟨h.nodup, by simpa using hnd, ?_⟩
      intro u hu w hw heq
      have hw' : w ∈ call.wires := by simpa using hw
      apply hfree w hw'
      rw [h.wires_eq, ← heq]
      exact hu

end HintMap

namespace Circuit

/-- The circuits that can be built, with the hint calls that were accepted. -/
inductive Built : List HintCall → Circuit c k → Prop where
  | new (layout : Layout) : Built [] (.new layout)
  | internConstant {calls : List HintCall} {s : Circuit c k} (v : Scalar c) :
      Built calls s → Built calls (s.internConstant v).2
  | addConstraint {calls : List HintCall} {s : Circuit c k} (g : Gate k) :
      Built calls s → Built calls (s.addConstraint g)
  | addHint {calls : List HintCall} {s t : Circuit c k} (call : HintCall) :
      Built calls s → s.addHint call = .ok t → Built (calls ++ [call]) t
  | addLog {calls : List HintCall} {s : Circuit c k} (entry : LogEntry) :
      Built calls s → Built calls (s.addLog entry)
  | attachDebugInfo {calls : List HintCall} {s : Circuit c k} (index : Nat) (entry : LogEntry) :
      Built calls s → Built calls (s.attachDebugInfo index entry)

/-- The hint map of a built circuit lists the accepted calls. -/
theorem Built.represents {calls : List HintCall} {s : Circuit c k} (h : Built calls s) :
    s.hints.Represents calls := by
  -- only an accepted call changes the map
  induction h with
  | new layout => exact HintMap.represents_empty
  | internConstant v _ ih => exact ih
  | addConstraint g _ ih => exact ih
  | addHint call _ hadd ih =>
    rw [Circuit.addHint, bind_eq_ok_iff] at hadd
    obtain ⟨m, hm, ht⟩ := hadd
    rw [pure_eq_ok_iff] at ht
    subst ht
    exact ih.add hm
  | addLog entry _ ih => exact ih
  | attachDebugInfo index entry _ ih => exact ih

/-- No gate of a built circuit has two diagnostics. -/
theorem Built.nodup_debugInfo {calls : List HintCall} {s : Circuit c k} (h : Built calls s) :
    (s.debugInfo.map Prod.fst).Nodup := by
  induction h with
  | new layout => exact List.nodup_nil
  | internConstant v _ ih => exact ih
  | addConstraint g _ ih => exact ih
  | addHint call _ hadd ih =>
    rw [Circuit.addHint, bind_eq_ok_iff] at hadd
    obtain ⟨m, -, ht⟩ := hadd
    rw [pure_eq_ok_iff] at ht
    subst ht
    exact ih
  | addLog entry _ ih => exact ih
  | attachDebugInfo index entry _ ih => exact Assoc.nodup_put ih index entry

end Circuit

end CircuitWitness
