import CircuitWitness.Fault
import Mathlib.Data.List.Forall2

/-! # Fallible computations

    How a sequence of fallible steps ends: with a value if all of its steps do,
    and else as the first step that stops.  A fault stops any operation, and a
    lifted fault stays that fault.
-/

namespace CircuitWitness

variable {ε α β : Type}

theorem bind_eq_ok_iff {x : Except ε α} {f : α → Except ε β} {b : β} :
    (x >>= f) = .ok b ↔ ∃ a, x = .ok a ∧ f a = .ok b := by
  cases x with
  | ok a => simp [bind, Except.bind]
  | error e => simp [bind, Except.bind]

/-- A check and then a step. -/
theorem check_bind_eq_ok_iff {x : Except ε Unit} {f : Unit → Except ε β} {b : β} :
    (x >>= f) = .ok b ↔ x = .ok () ∧ f () = .ok b := by
  rw [bind_eq_ok_iff]
  constructor
  · intro h
    obtain ⟨⟨⟩, hx, hf⟩ := h
    exact ⟨hx, hf⟩
  · intro h
    obtain ⟨hx, hf⟩ := h
    exact ⟨(), hx, hf⟩

theorem bind_eq_error_iff {x : Except ε α} {f : α → Except ε β} {e : ε} :
    (x >>= f) = .error e ↔ x = .error e ∨ ∃ a, x = .ok a ∧ f a = .error e := by
  cases x with
  | ok a => simp [bind, Except.bind]
  | error e => simp [bind, Except.bind]

/-- A check and then a step stop at the check or at the step. -/
theorem check_bind_eq_error_iff {x : Except ε Unit} {f : Unit → Except ε β} {e : ε} :
    (x >>= f) = .error e ↔ x = .error e ∨ x = .ok () ∧ f () = .error e := by
  rw [bind_eq_error_iff, Unique.exists_iff]

theorem pure_eq_ok_iff {a b : α} : (pure a : Except ε α) = .ok b ↔ a = b := by
  simp [pure, Except.pure]

theorem mapError_eq_ok_iff {ε' : Type} {g : ε → ε'} {x : Except ε α} {a : α} :
    x.mapError g = .ok a ↔ x = .ok a := by
  cases x <;> simp [Except.mapError]

theorem mapError_eq_error_iff {ε' : Type} {g : ε → ε'} {x : Except ε α} {e : ε'} :
    x.mapError g = .error e ↔ ∃ e', x = .error e' ∧ g e' = e := by
  cases x <;> simp [Except.mapError]

/-- Lifting into an operation with errors of its own keeps a fault a fault. -/
theorem liftM_eq_mapError (x : Except Fault α) :
    (liftM x : Except (Stop ε) α) = x.mapError .fault := rfl

theorem forM_eq_ok_iff {f : α → Except ε Unit} {l : List α} :
    l.forM f = .ok () ↔ ∀ a ∈ l, f a = .ok () := by
  induction l with
  | nil => simp [List.forM, pure, Except.pure]
  | cons a rest ih =>
    show (f a >>= fun _ => rest.forM f) = .ok () ↔ _
    rw [check_bind_eq_ok_iff, ih, List.forall_mem_cons]

/-- A list of checks reports the first that fails; those before it have passed. -/
theorem forM_eq_error_iff {f : α → Except ε Unit} {l : List α} {e : ε} :
    l.forM f = .error e ↔ ∃ before a after, l = before ++ a :: after ∧
      (∀ b ∈ before, f b = .ok ()) ∧ f a = .error e := by
  induction l with
  | nil => simp [List.forM, pure, Except.pure]
  | cons a rest ih =>
    show (f a >>= fun _ => rest.forM f) = .error e ↔ _
    rw [check_bind_eq_error_iff]
    -- the first check fails, or it passes and a later one does
    constructor
    · rintro (ha | ⟨ha, hrest⟩)
      · exact ⟨[], a, rest, rfl, nofun, ha⟩
      · obtain ⟨before, b, after, rfl, hbefore, hb⟩ := ih.1 hrest
        exact ⟨a :: before, b, after, rfl, List.forall_mem_cons.2 ⟨ha, hbefore⟩, hb⟩
    · rintro ⟨before, b, after, hl, hbefore, hb⟩
      cases before with
      | nil =>
        cases hl
        exact .inl hb
      | cons _ before =>
        cases hl
        obtain ⟨ha, hbefore⟩ := List.forall_mem_cons.1 hbefore
        exact .inr ⟨ha, ih.2 ⟨before, b, after, rfl, hbefore, hb⟩⟩

/-- Where the checks know the positions, the one that fails knows how many passed. -/
theorem forM_zipIdx_eq_error_iff {f : α × Nat → Except ε Unit} {ok : α → Prop}
    (hok : ∀ a i, f (a, i) = .ok () ↔ ok a) {l : List α} {e : ε} :
    l.zipIdx.forM f = .error e ↔ ∃ before a after, l = before ++ a :: after ∧
      (∀ b ∈ before, ok b) ∧ f (a, before.length) = .error e := by
  rw [forM_eq_error_iff]
  constructor
  · rintro ⟨before, ⟨a, i⟩, after, hl, hbefore, ha⟩
    -- the position of an element is the number of those before it
    have hi : i = before.length := by
      have hget : l.zipIdx[before.length]? = some (a, i) := by simp [hl]
      rw [List.getElem?_zipIdx] at hget
      obtain ⟨b, -, hb⟩ := Option.map_eq_some_iff.1 hget
      simpa using (congrArg Prod.snd hb).symm
    refine ⟨before.map Prod.fst, a, after.map Prod.fst, ?_, ?_, ?_⟩
    · have hfst := congrArg (List.map Prod.fst) hl
      simpa using hfst
    · intro b hb
      obtain ⟨⟨b, j⟩, hmem, rfl⟩ := List.mem_map.1 hb
      exact (hok b j).1 (hbefore _ hmem)
    · rw [List.length_map, ← hi]
      exact ha
  · rintro ⟨before, a, after, rfl, hbefore, ha⟩
    refine ⟨before.zipIdx, (a, before.length), after.zipIdx (before.length + 1), ?_, ?_, ha⟩
    · simp [List.zipIdx_append, List.zipIdx_cons]
    · rintro ⟨b, j⟩ hmem
      exact (hok b j).2 (hbefore b (List.fst_mem_of_mem_zipIdx hmem))

theorem mapM_eq_ok_iff {f : α → Except ε β} {l : List α} {bs : List β} :
    l.mapM f = .ok bs ↔ List.Forall₂ (fun a b => f a = .ok b) l bs := by
  induction l generalizing bs with
  | nil =>
    rw [List.mapM_nil, pure_eq_ok_iff]
    constructor
    · intro hnil
      rw [← hnil]
      exact .nil
    · intro hall
      cases hall
      rfl
  | cons a rest ih =>
    rw [List.mapM_cons, bind_eq_ok_iff]
    simp only [bind_eq_ok_iff, pure_eq_ok_iff]
    constructor
    · intro h
      obtain ⟨b, hb, bs', hbs, rfl⟩ := h
      exact .cons hb (ih.1 hbs)
    · intro hall
      rcases hall with _ | ⟨hb, hbs⟩
      exact ⟨_, hb, _, ih.2 hbs, rfl⟩

theorem mapM_eq_ok_map {f : α → Except ε β} {g : α → β} {l : List α}
    (h : ∀ a ∈ l, f a = .ok (g a)) : l.mapM f = .ok (l.map g) := by
  rw [mapM_eq_ok_iff, List.forall₂_map_right_iff, List.forall₂_same]
  exact h

/-- A vector is mapped as its list. -/
theorem toArray_mapM_vector {n : Nat} (f : α → Except ε β) (xs : Vector α n) :
    Vector.toArray <$> xs.mapM f = List.toArray <$> xs.toList.mapM f := by
  rw [Vector.toArray_mapM, Array.mapM_eq_mapM_toList]
  rfl

theorem mapM_vector_eq_ok_iff {n : Nat} {f : α → Except ε β} {xs : Vector α n}
    {ys : Vector β n} :
    xs.mapM f = .ok ys ↔ List.Forall₂ (fun a b => f a = .ok b) xs.toList ys.toList := by
  have hlist := toArray_mapM_vector f xs
  rw [← mapM_eq_ok_iff]
  -- a vector is mapped as the list of its entries is
  constructor
  · intro hxs
    rw [hxs] at hlist
    cases hbs : xs.toList.mapM f with
    | error e =>
      rw [hbs] at hlist
      cases hlist
    | ok bs =>
      rw [hbs] at hlist
      have harray : ys.toArray = bs.toArray := Except.ok.inj hlist
      rw [Vector.toList, harray]
  · intro hbs
    rw [hbs] at hlist
    cases hxs : xs.mapM f with
    | error e =>
      rw [hxs] at hlist
      cases hlist
    | ok zs =>
      rw [hxs] at hlist
      have harray : zs.toArray = ys.toList.toArray := Except.ok.inj hlist
      rw [Vector.toArray_inj.1 (harray.trans (Array.toArray_toList ..))]

/-! ## Computations that have a value -/

theorem exists_bind {x : Except ε α} {f : α → Except ε β} (hx : ∃ a, x = .ok a)
    (hf : ∀ a, x = .ok a → ∃ b, f a = .ok b) : ∃ b, (x >>= f) = .ok b := by
  obtain ⟨a, ha⟩ := hx
  obtain ⟨b, hb⟩ := hf a ha
  exact ⟨b, bind_eq_ok_iff.2 ⟨a, ha, hb⟩⟩

theorem exists_ok_of_toOption {x : Except ε α} {f : α → β} {b : β}
    (h : x.toOption.map f = some b) : ∃ a, x = .ok a ∧ f a = b := by
  cases x with
  | ok a => exact ⟨a, rfl, Option.some.inj h⟩
  | error e => cases h

theorem exists_mapM {f : α → Except ε β} {l : List α} (h : ∀ a ∈ l, ∃ b, f a = .ok b) :
    ∃ bs, l.mapM f = .ok bs := by
  induction l with
  | nil => exact ⟨[], rfl⟩
  | cons a rest ih =>
    rw [List.mapM_cons]
    apply exists_bind (h a List.mem_cons_self)
    intro b _
    apply exists_bind (ih fun u hu => h u (List.mem_cons_of_mem _ hu))
    intro bs _
    exact ⟨b :: bs, rfl⟩

theorem exists_mapM_vector {n : Nat} {f : α → Except ε β} {xs : Vector α n}
    (h : ∀ a ∈ xs, ∃ b, f a = .ok b) : ∃ ys, xs.mapM f = .ok ys := by
  obtain ⟨bs, hbs⟩ := exists_mapM (l := xs.toList) (f := f) (by simpa using h)
  have hlist := toArray_mapM_vector f xs
  rw [hbs] at hlist
  cases hxs : xs.mapM f with
  | ok ys => exact ⟨ys, rfl⟩
  | error e =>
    rw [hxs] at hlist
    cases hlist

/-! ## Keeping what passes a test -/

section Filter

variable {p : α → Except ε Bool} {ready : α → Prop} {q : α → Bool}

theorem filterAuxM_eq_ok_iff (hp : ∀ a b, p a = .ok b ↔ ready a ∧ q a = b) {l acc l' : List α} :
    List.filterAuxM p l acc = .ok l' ↔
      (∀ a ∈ l, ready a) ∧ (l.filter q).reverse ++ acc = l' := by
  -- what passes is put in front of `acc`, so the accumulator varies
  induction l generalizing acc with
  | nil => simp [List.filterAuxM, pure_eq_ok_iff]
  | cons a rest ih =>
    rw [List.filterAuxM, bind_eq_ok_iff, List.forall_mem_cons, List.filter_cons]
    simp only [hp, ih]
    constructor
    · intro h
      obtain ⟨b, ⟨ha, hb⟩, hrest, hl⟩ := h
      refine ⟨⟨ha, hrest⟩, ?_⟩
      rw [hb]
      by_cases htrue : b = true
      · simpa [htrue] using hl
      · simpa [htrue] using hl
    · intro h
      obtain ⟨⟨ha, hrest⟩, hl⟩ := h
      refine ⟨q a, ⟨ha, rfl⟩, hrest, ?_⟩
      by_cases hq : q a = true
      · simpa [hq] using hl
      · simpa [hq] using hl

/-- A test that can stop keeps what passes it, if it stops nowhere. -/
theorem filterM_eq_ok_iff (hp : ∀ a b, p a = .ok b ↔ ready a ∧ q a = b) {l l' : List α} :
    l.filterM p = .ok l' ↔ (∀ a ∈ l, ready a) ∧ l.filter q = l' := by
  rw [List.filterM, bind_eq_ok_iff]
  simp only [filterAuxM_eq_ok_iff hp, pure_eq_ok_iff, List.append_nil]
  constructor
  · intro h
    obtain ⟨_, ⟨hall, heq⟩, hl⟩ := h
    refine ⟨hall, ?_⟩
    rw [← hl, ← heq, List.reverse_reverse]
  · intro h
    obtain ⟨hall, hl⟩ := h
    refine ⟨_, ⟨hall, rfl⟩, ?_⟩
    rw [List.reverse_reverse, hl]

end Filter

/-- A test that is applied to a list stops at one of its elements. -/
theorem filterM_eq_error {p : α → Except ε Bool} {l : List α} {e : ε}
    (h : l.filterM p = .error e) : ∃ a ∈ l, p a = .error e := by
  -- the list is filtered into an accumulator, which no test looks at
  have haux : ∀ (l acc : List α), List.filterAuxM p l acc = .error e → ∃ a ∈ l, p a = .error e := by
    intro l
    induction l with
    | nil =>
      intro acc habs
      cases habs
    | cons a rest ih =>
      intro acc hrest
      rw [List.filterAuxM, bind_eq_error_iff] at hrest
      rcases hrest with ha | ⟨b, -, hrest⟩
      · exact ⟨a, List.mem_cons_self, ha⟩
      · obtain ⟨a', hmem, ha'⟩ := ih _ hrest
        exact ⟨a', List.mem_cons_of_mem _ hmem, ha'⟩
  rw [List.filterM, bind_eq_error_iff] at h
  rcases h with haux' | ⟨_, -, habs⟩
  · exact haux l [] haux'
  · cases habs

end CircuitWitness
