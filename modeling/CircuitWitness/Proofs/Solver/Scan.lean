import CircuitWitness.Proofs.Solver.Search
import Mathlib.Data.List.Dedup

/-! # Scanning for the unknown

    Where no call produces an unsolved wire of a gate, the search for its unknown
    changes nothing.  It passes over the terms that can be computed and scans the
    open ones (`scan`), which is a function of the terms alone.
-/

namespace CircuitWitness

open Solving

variable {c : Curve} {π : Type}

/-! ## Open terms -/

namespace Solution

variable {s : Solution c} {t : Term}

/-- The term needs a wire and the wire is unsolved.  With the coefficient zero it needs none;
    no other index holds zero (`CoefficientTable.coefficient_eq_zero_iff`). -/
def isOpen (s : Solution c) (t : Term) : Bool :=
  !t.isVirtual && t.coeff != .zero && (s.get? t.wire).isNone

theorem isOpen_iff (hrange : t.InRange s.nWires) : s.isOpen t = true ↔ s.Open t := by
  simp only [isOpen, Bool.and_eq_true, Bool.not_eq_true', bne_iff_ne, Option.isNone_iff_eq_none]
  constructor
  · rintro ⟨⟨hreal, hcoeff⟩, hunsolved⟩
    exact ⟨hreal, hcoeff, hrange hreal, hunsolved⟩
  · intro h
    exact ⟨⟨h.real, h.coeff_ne⟩, h.unsolved⟩

/-- A term is known or open. -/
theorem isKnown_eq (hrange : t.InRange s.nWires) : s.isKnown t = .ok (!s.isOpen t) := by
  cases hopen : s.isOpen t with
  | true => exact isKnown_false_iff.2 ((isOpen_iff hrange).1 hopen)
  | false =>
    refine isKnown_true_iff.2 ?_
    unfold isOpen at hopen
    unfold Known
    -- not open, the term is virtual, or it has the coefficient zero or a solved wire
    cases hvirt : t.isVirtual with
    | true => exact .inl rfl
    | false =>
      refine .inr ?_
      by_cases hzero : t.coeff = .zero
      · exact .inl hzero
      · right
        simpa [hvirt, hzero, Option.isSome_iff_ne_none] using hopen

theorem known_of_isOpen_eq_false (hrange : t.InRange s.nWires) (h : s.isOpen t = false) :
    s.Known t := by
  have hknown := isKnown_eq hrange
  rw [h] at hknown
  exact isKnown_true_iff.1 hknown

theorem known_or_open (hrange : t.InRange s.nWires) : s.Known t ∨ s.Open t := by
  cases h : s.isOpen t with
  | true => exact .inr ((isOpen_iff hrange).1 h)
  | false => exact .inl (known_of_isOpen_eq_false hrange h)

end Solution

/-- No call can be asked for the wire of the term: it is solved, or nothing produces it. -/
def Context.Idle (ctx : Context c) (s : Solution c) (t : Term) : Prop :=
  t.isVirtual = false → s.get? t.wire = none → ctx.hints.producer? t.wire = none

instance (ctx : Context c) (s : Solution c) (t : Term) : Decidable (ctx.Idle s t) :=
  inferInstanceAs (Decidable (_ → _ → _))

theorem exec_resolve_of_idle {ctx : Context c} {st : SolveState c} {t : Term}
    (hrange : t.InRange st.solution.nWires) (hidle : ctx.Idle st.solution t) :
    exec (resolve ctx t) st = (.ok (), st) := by
  unfold resolve
  cases hvirt : t.isVirtual with
  | true => rfl
  | false =>
    have hsolved := Solution.isSolved_eq_ok_iff.2 ⟨hrange hvirt, rfl⟩
    rw [if_neg (by decide), exec_bind, exec_read, hsolved]
    -- no call produces an unsolved wire, so that there is nothing to run
    cases hget : st.solution.get? t.wire with
    | some x => rfl
    | none =>
      rw [hidle hvirt hget]
      rfl

/-! ## The scan -/

/-- The search for the unknown among places that are all open. -/
def scan (clash : π → π → Bool) : (found : Option π) → List π → Unknowns π
  | found, [] => .ofOption found
  | none, p :: rest => scan clash (some p) rest
  | some q, p :: rest => if clash q p then .several else scan clash (some p) rest

/-- An idle search changes nothing and finds what a scan of the open places finds. -/
theorem exec_seekUnknown_of_idle {ctx : Context c} {st : SolveState c} {f : π → Term}
    (clash : π → π → Bool) {places : List π}
    (hrange : ∀ p ∈ places, (f p).InRange st.solution.nWires)
    (hidle : ∀ p ∈ places, ctx.Idle st.solution (f p)) (found : Option π) :
    exec (seekUnknown ctx f clash found places) st =
      (.ok (scan clash found (places.filter fun p => st.solution.isOpen (f p))), st) := by
  -- the state stays, and only what was found so far varies
  induction places generalizing found with
  | nil => cases found <;> rfl
  | cons p rest ih =>
    obtain ⟨hp, hrest⟩ := List.forall_mem_cons.1 hrange
    obtain ⟨hpidle, hrestidle⟩ := List.forall_mem_cons.1 hidle
    have hgoes := ih hrest hrestidle
    rw [seekUnknown_cons, exec_bind, exec_resolve_of_idle hp hpidle]
    simp only [exec_bind, exec_read, Solution.isKnown_eq hp]
    cases hopen : st.solution.isOpen (f p) with
    | false =>
      rw [List.filter_cons, if_neg (by simp [hopen])]
      exact hgoes found
    | true =>
      rw [List.filter_cons, if_pos hopen]
      cases found with
      | none => exact hgoes (some p)
      | some q =>
        show exec (if clash q p then _ else _) st = (.ok (if clash q p then _ else _), st)
        split
        · rfl
        · exact hgoes (some p)

/-! ## What a scan finds -/

namespace Unknowns

/-- What is left open if just these are. -/
def ofList : List π → Unknowns π
  | [] => .none
  | [p] => .one p
  | _ :: _ :: _ => .several

theorem ofList_eq_none_iff {l : List π} : ofList l = .none ↔ l = [] := by
  rcases l with _ | ⟨_, _ | _⟩ <;> simp [ofList]

theorem ofList_eq_one_iff {l : List π} {p : π} : ofList l = .one p ↔ l = [p] := by
  rcases l with _ | ⟨_, _ | _⟩ <;> simp [ofList]

/-- Different elements are left open: one, if the others repeat the first. -/
theorem ofList_dedup_cons [DecidableEq π] (p : π) (l : List π) :
    ofList (p :: l).dedup = if ∀ q ∈ l, q = p then .one p else .several := by
  split
  · rename_i hall
    have hsame : p :: l = List.replicate (l.length + 1) p := by
      rw [List.replicate_succ, List.cons.injEq]
      exact ⟨rfl, List.eq_replicate_iff.2 ⟨rfl, hall⟩⟩
    rw [hsame, List.replicate_dedup (by simp)]
    rfl
  · rename_i hother
    have hmem : ∀ q, q ∈ (p :: l).dedup ↔ q ∈ p :: l := fun q => List.mem_dedup
    rcases hdedup : (p :: l).dedup with _ | ⟨q, _ | _⟩
    · have habs := (hmem p).2 List.mem_cons_self
      rw [hdedup] at habs
      cases habs
    · -- with one element in the list, the others repeat it
      rw [hdedup] at hmem
      simp only [List.mem_singleton] at hmem
      have hp := (hmem p).2 List.mem_cons_self
      refine absurd ?_ hother
      intro u hu
      rw [(hmem u).2 (List.mem_cons_of_mem p hu), hp]
    · rfl

/-- What is left open, seen through `f`. -/
def map {ρ : Type} (f : π → ρ) : Unknowns π → Unknowns ρ
  | .none => .none
  | .one p => .one (f p)
  | .several => .several

theorem map_ofList {ρ : Type} (f : π → ρ) (l : List π) : (ofList l).map f = ofList (l.map f) := by
  rcases l with _ | ⟨_, _ | _⟩ <;> rfl

end Unknowns

section Scan

variable {clash : π → π → Bool}

theorem mem_of_scan_eq_one {found : Option π} {l : List π} {p : π}
    (h : scan clash found l = .one p) : p ∈ l ∨ found = some p := by
  induction l generalizing found with
  | nil =>
    cases found with
    | none => cases h
    | some q =>
      cases h
      exact .inr rfl
  | cons q rest ih =>
    have hrest : scan clash (some q) rest = .one p → p ∈ q :: rest := by
      intro hscan
      rcases ih hscan with hmem | heq
      · exact List.mem_cons_of_mem q hmem
      · cases heq
        exact List.mem_cons_self
    -- each element that is passed becomes the one that was found
    cases found with
    | none => exact .inl (hrest h)
    | some u =>
      rw [scan] at h
      split at h
      · cases h
      · exact .inl (hrest h)

/-- If any two places clash, a scan counts the open places. -/
theorem scan_of_always (l : List π) : scan (fun _ _ => true) none l = .ofList l := by
  rcases l with _ | ⟨_, _ | _⟩ <;> rfl

variable {ρ : Type} [DecidableEq ρ] {f : π → ρ}

theorem map_scan_some (hclash : ∀ q p, clash q p = (f q != f p)) (q : π) (l : List π) :
    (scan clash (some q) l).map f = if ∀ p ∈ l, f p = f q then .one (f q) else .several := by
  induction l generalizing q with
  | nil => rw [if_pos (by simp)]; rfl
  | cons p rest ih =>
    rw [scan, hclash]
    by_cases hp : f q = f p
    · -- the unknown moves to a place that looks the same
      simp only [hp, bne_self_eq_false, Bool.false_eq_true, if_false, ih p, List.forall_mem_cons,
        true_and]
    · rw [if_pos (by simpa using hp), if_neg (by simp [Ne.symm hp])]
      rfl

/-- If places clash unless they look the same, a scan counts how they look. -/
theorem map_scan (hclash : ∀ q p, clash q p = (f q != f p)) (l : List π) :
    (scan clash none l).map f = .ofList (l.map f).dedup := by
  cases l with
  | nil => rfl
  | cons p rest =>
    rw [List.map_cons, Unknowns.ofList_dedup_cons]
    simp only [List.forall_mem_map]
    exact map_scan_some hclash p rest

end Scan

end CircuitWitness
