import CircuitWitness.Proofs.Circuit.Symbols
import CircuitWitness.Proofs.Evaluation

/-! # The line of an entry by its segments

    Delimiters cut the terms of an entry into segments (`LogEntry.segments`).  The
    renderer walks over the terms one by one and keeps in mind whether it is inside
    of a span and what the span has come to so far.  What it writes is told segment by
    segment: the first is outside, the second is a span, the third is outside, and so
    on.  A segment outside gives the pieces of its terms (`Solution.termTexts`), and a
    span gives one piece, its value as a combination, no matter whether a delimiter
    closes it.
-/

namespace CircuitWitness

variable {c : Curve} {table : CoefficientTable c} {s : Solution c}

/-! ## Segments -/

/-- The terms of an entry, cut at its delimiters. -/
def LogEntry.segments (entry : LogEntry) : List (List Term) := entry.terms.splitOn .delimiter

/-- A segment is a part of what was cut. -/
theorem mem_of_mem_splitOn {t d : Term} {terms segment : List Term}
    (hsegment : segment ∈ terms.splitOn d) (ht : t ∈ segment) : t ∈ terms := by
  induction terms generalizing segment with
  | nil =>
    rw [List.splitOn_nil, List.mem_singleton] at hsegment
    rw [hsegment] at ht
    cases ht
  | cons u rest ih =>
    rw [List.splitOn_cons_eq_if_modifyHead] at hsegment
    split at hsegment
    · rcases List.mem_cons.1 hsegment with rfl | hsegment
      · cases ht
      · exact List.mem_cons_of_mem _ (ih hsegment ht)
    · -- the first term goes to the front of the first segment of the rest
      obtain ⟨first, others, hsplit⟩ := List.exists_cons_of_ne_nil (List.splitOn_ne_nil d rest)
      rw [hsplit, List.modifyHead_cons] at hsegment
      rw [hsplit] at ih
      rcases List.mem_cons.1 hsegment with rfl | hother
      · rcases List.mem_cons.1 ht with rfl | ht
        · exact List.mem_cons_self
        · exact List.mem_cons_of_mem _ (ih List.mem_cons_self ht)
      · exact List.mem_cons_of_mem _ (ih (List.mem_cons_of_mem _ hother) ht)

namespace Solution

/-! ## Outside of a span -/

/-- What a term outside of a span shows: its constant, or its coefficient, unless that is
    `1` or `-1`, and its wire. -/
def termTexts (table : CoefficientTable c) (s : Solution c) (t : Term) : List String :=
  let coefficient := (table.coefficient t.coeff).decimal
  if t.isVirtual then [if t.coeff = .minusOne then "-1" else coefficient]
  else if t.coeff = .one ∨ t.coeff = .minusOne then [valueText (s.get? t.wire)]
  else [coefficient, valueText (s.get? t.wire)]

theorem termPieces_eq {t : Term} (ht : t.InBounds table s.nWires) :
    s.termPieces table t = .ok (s.termTexts table t) := by
  have hcoeff := CoefficientTable.value_eq_ok_iff.2 ⟨ht.1, rfl⟩
  unfold termPieces termTexts
  -- a constant has one piece, and so has a wire with a unit before it
  by_cases hv : t.isVirtual = true
  · rw [if_pos hv, if_pos hv, CoefficientTable.constantText_eq_ok_iff.2 ⟨ht.1, rfl⟩]
    rfl
  · have hvalue := value_eq_ok_iff.2 ⟨ht.2 (by simpa using hv), rfl⟩
    rw [if_neg hv, if_neg hv, hvalue, hcoeff]
    by_cases hu : t.coeff = .one ∨ t.coeff = .minusOne
    · have hunit : t.coeff.isUnit = true := by simpa [CoeffId.isUnit] using hu
      rw [if_pos hunit, if_pos hu]
      rfl
    · have hunit : ¬t.coeff.isUnit = true := by simpa [CoeffId.isUnit] using hu
      rw [if_neg hunit, if_neg hu]
      rfl

/-- Terms outside of a span show their own pieces. -/
theorem pieces_outside {terms rest : List Term} {texts : List String}
    (hfree : .delimiter ∉ terms) (hb : ∀ t ∈ terms, t.InBounds table s.nWires)
    (hrest : s.pieces table none rest = .ok texts) :
    s.pieces table none (terms ++ rest) = .ok (terms.flatMap (s.termTexts table) ++ texts) := by
  induction terms with
  | nil => exact hrest
  | cons t others ih =>
    rw [List.mem_cons, not_or] at hfree
    have hfirst : t.isDelimiter = false := beq_false_of_ne (Ne.symm hfree.1)
    have hothers := ih hfree.2 fun u hu => hb u (List.mem_cons_of_mem _ hu)
    rw [List.cons_append, pieces, hfirst, termPieces_eq (hb t List.mem_cons_self), hothers,
      List.flatMap_cons, List.append_assoc]
    rfl

/-! ## Inside of a span -/

theorem addToSpan_of_computeKnown {t : Term} {sum : Scalar c} {o : Option (Scalar c)}
    (h : s.computeKnown table t = .ok o) :
    s.addToSpan table (some sum) t = .ok (o.map (sum + ·)) := by
  unfold computeKnown at h
  obtain ⟨b, hb, h⟩ := bind_eq_ok_iff.1 h
  -- a term of a span is added if it is known, and else the span is lost
  unfold addToSpan
  rw [hb]
  cases b with
  | true =>
    obtain ⟨x, hx, ho⟩ := bind_eq_ok_iff.1 h
    cases ho
    show (s.computeTerm table t >>= fun x => pure (some (sum + x))) = _
    rw [hx]
    rfl
  | false =>
    cases h
    rfl

/-- A span without a value does not get one again. -/
theorem pieces_lost {terms rest : List Term} (hfree : .delimiter ∉ terms)
    (hb : ∀ t ∈ terms, t.InBounds table s.nWires) :
    s.pieces table (some none) (terms ++ rest) = s.pieces table (some none) rest := by
  induction terms with
  | nil => rfl
  | cons t others ih =>
    rw [List.mem_cons, not_or] at hfree
    have hfirst : t.isDelimiter = false := beq_false_of_ne (Ne.symm hfree.1)
    -- a lost span stays lost, but its terms are still looked up
    obtain ⟨b, hknown⟩ := exists_isKnown (hb t List.mem_cons_self)
    have hadd : s.addToSpan table none t = .ok none := by
      unfold addToSpan
      rw [hknown]
      rfl
    rw [List.cons_append, pieces, hfirst, hadd]
    exact ih hfree.2 fun u hu => hb u (List.mem_cons_of_mem _ hu)

/-- The terms of a span are added up as those of a combination. -/
theorem pieces_inside {terms rest : List Term} {sum : Scalar c} {o : Option (Scalar c)}
    (hfree : .delimiter ∉ terms) (hb : ∀ t ∈ terms, t.InBounds table s.nWires)
    (h : s.evaluateFrom table sum terms = .ok o) :
    s.pieces table (some (some sum)) (terms ++ rest) = s.pieces table (some o) rest := by
  -- the sum grows with every term; the first unknown ends the evaluation, but not the walk
  induction terms generalizing sum with
  | nil =>
    cases h
    rfl
  | cons t others ih =>
    rw [List.mem_cons, not_or] at hfree
    have hfirst : t.isDelimiter = false := beq_false_of_ne (Ne.symm hfree.1)
    have hothers := fun u hu => hb u (List.mem_cons_of_mem t hu)
    obtain ⟨first, hknown, h⟩ := bind_eq_ok_iff.1 h
    rw [List.cons_append, pieces, hfirst, addToSpan_of_computeKnown hknown]
    cases first with
    | some x => exact ih hfree.2 hothers h
    | none =>
      cases h
      exact pieces_lost hfree.2 hothers

/-! ## Segment by segment -/

/-- What a segment at a position shows, with `sum` for the values of spans. -/
def segmentTexts (table : CoefficientTable c) (s : Solution c)
    (sum : List Term → Option (Scalar c)) (segment : List Term) (i : Nat) : List String :=
  if i % 2 = 0 then segment.flatMap (s.termTexts table) else [valueText (sum segment)]

/-- Before the segment at a position: outside of a span, or in a new one. -/
def spanAt (i : Nat) : Option (Option (Scalar c)) := if i % 2 = 0 then none else some (some 0)

section Segments

variable {sum : List Term → Option (Scalar c)} {segment : List Term} {i : Nat}

/-- The last segment is closed by the end of the entry. -/
theorem pieces_last (hfree : .delimiter ∉ segment)
    (hb : ∀ t ∈ segment, t.InBounds table s.nWires)
    (hsum : s.evaluate table ⟨segment⟩ = .ok (sum segment)) :
    s.pieces table (spanAt i) segment = .ok (s.segmentTexts table sum segment i) := by
  unfold spanAt segmentTexts
  -- outside and inside of a span alternate, and the last segment is closed by nothing
  by_cases hi : i % 2 = 0
  · rw [if_pos hi, if_pos hi]
    have hterms : s.pieces table none (segment ++ []) = _ := pieces_outside hfree hb rfl
    rw [List.append_nil, List.append_nil] at hterms
    exact hterms
  · rw [if_neg hi, if_neg hi]
    have hspan : s.pieces table _ (segment ++ []) = _ := pieces_inside hfree hb hsum
    rw [List.append_nil] at hspan
    exact hspan

/-- Any other is closed by a delimiter, which opens the next. -/
theorem pieces_next {rest : List Term} {texts : List String} (hfree : .delimiter ∉ segment)
    (hb : ∀ t ∈ segment, t.InBounds table s.nWires)
    (hsum : s.evaluate table ⟨segment⟩ = .ok (sum segment))
    (hrest : s.pieces table (spanAt (i + 1)) rest = .ok texts) :
    s.pieces table (spanAt i) (segment ++ .delimiter :: rest) =
      .ok (s.segmentTexts table sum segment i ++ texts) := by
  unfold spanAt at hrest ⊢
  unfold segmentTexts
  -- the delimiter turns one into the other
  by_cases hi : i % 2 = 0
  · rw [if_neg (by omega)] at hrest
    rw [if_pos hi, if_pos hi]
    apply pieces_outside hfree hb
    rw [pieces]
    exact hrest
  · rw [if_pos (by omega)] at hrest
    rw [if_neg hi, if_neg hi, pieces_inside hfree hb hsum, pieces, hrest]
    rfl

end Segments

theorem pieces_eq {sum : List Term → Option (Scalar c)} (terms : List Term) (i : Nat)
    (hb : ∀ t ∈ terms, t.InBounds table s.nWires)
    (hsum : ∀ segment ∈ terms.splitOn .delimiter,
      s.evaluate table ⟨segment⟩ = .ok (sum segment)) :
    s.pieces table (spanAt i) terms =
      .ok (((terms.splitOn .delimiter).zipIdx i).flatMap fun (segment, i) =>
        s.segmentTexts table sum segment i) := by
  by_cases hmem : Term.delimiter ∈ terms
  · -- up to the first delimiter, and then the shorter rest
    obtain ⟨segment, rest, rfl, hfree⟩ := List.eq_append_cons_of_mem hmem
    rw [List.splitOn_append_cons_self_of_not_mem hfree] at hsum ⊢
    rw [List.forall_mem_cons] at hsum
    rw [List.forall_mem_append, List.forall_mem_cons] at hb
    obtain ⟨hsegment, -, hbrest⟩ := hb
    have hrest := pieces_eq rest (i + 1) hbrest hsum.2
    rw [List.zipIdx_cons, List.flatMap_cons]
    exact pieces_next hfree hsegment hsum.1 hrest
  · rw [List.splitOn_eq_singleton hmem] at hsum ⊢
    rw [pieces_last hmem hb (hsum _ List.mem_cons_self)]
    simp
termination_by terms.length

end Solution

/-- An entry of existing wires and constants is rendered without a fault: its format is
    filled with what its segments show, one after another, and a span shows its value as a
    combination. -/
theorem render_segments {entry : LogEntry}
    (hb : ∀ t ∈ entry.terms, t.InBounds table s.nWires) :
    ∃ sum : List Term → Option (Scalar c),
      (∀ segment ∈ entry.segments, s.evaluate table ⟨segment⟩ = .ok (sum segment)) ∧
      s.render table entry = .ok (Log.fillText entry.format
        (entry.segments.zipIdx.flatMap fun (segment, i) =>
          s.segmentTexts table sum segment i)) := by
  -- every segment can be evaluated, since its terms are in bounds
  have hsum : ∀ segment ∈ entry.segments,
      s.evaluate table ⟨segment⟩ = .ok (s.evaluate table ⟨segment⟩).toOption.join := by
    intro segment hsegment
    obtain ⟨o, ho⟩ := Solution.exists_evaluateFrom
      (fun t ht => hb t (mem_of_mem_splitOn hsegment ht)) (0 : Scalar c)
    rw [Solution.evaluate, ho]
    rfl
  refine ⟨_, hsum, ?_⟩
  have hpieces := Solution.pieces_eq entry.terms 0 hb hsum
  rw [Solution.spanAt, if_pos rfl] at hpieces
  rw [Solution.render, hpieces]
  rfl

/-- `x`, a span of `2 ⋅ x + 0 ⋅ y`, then `y`, and a span of `y` that is left open. -/
def LogEntry.partway : LogEntry where
  format := "\x7b\x7d = \x7b\x7d, \x7b\x7d = \x7b\x7d"
  terms :=
    [⟨.one, ⟨1⟩, .internal⟩, .delimiter, ⟨.two, ⟨1⟩, .internal⟩, ⟨.zero, ⟨2⟩, .internal⟩,
      .delimiter, ⟨.one, ⟨2⟩, .internal⟩, .delimiter, ⟨.one, ⟨2⟩, .internal⟩]

/-- `x` is `5`, and `y` is unsolved; it does not count in the first span. -/
theorem render_segments_sample :
    SolveState.partway.solution.render .new .partway =
      .ok "5 = 10, <unsolved> = <unsolved>" := by
  have hb : ∀ t ∈ LogEntry.partway.terms,
      t.InBounds (.new : CoefficientTable .bn254) SolveState.partway.solution.nWires := by decide
  obtain ⟨sum, hsum, hrender⟩ := render_segments hb
  have hfirst := hsum [⟨.two, ⟨1⟩, .internal⟩, ⟨.zero, ⟨2⟩, .internal⟩] (by decide)
  have hsecond := hsum [⟨.one, ⟨2⟩, .internal⟩] (by decide)
  have hten : some 10 = sum [⟨.two, ⟨1⟩, .internal⟩, ⟨.zero, ⟨2⟩, .internal⟩] :=
    Except.ok.inj hfirst
  have hopen : none = sum [⟨.one, ⟨2⟩, .internal⟩] := Except.ok.inj hsecond
  rw [hrender]
  show Except.ok (Log.fillText LogEntry.partway.format
    ["5", valueText (sum [⟨.two, ⟨1⟩, .internal⟩, ⟨.zero, ⟨2⟩, .internal⟩]), unsolvedText,
      valueText (sum [⟨.one, ⟨2⟩, .internal⟩])]) = _
  rw [← hten, ← hopen]
  rfl

end CircuitWitness
