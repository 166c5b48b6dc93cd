import CircuitWitness.Proofs.Solver.Rendering
import CircuitWitness.Solver.Witness

/-! # Printing to a sink

    A sink with a limit takes the first bytes that it is offered, up to the limit, and
    the limit may lie within a line (`Sink.Took`).  Printing offers it the lines of all
    entries.  Writing them one by one and stopping at the first that is cut comes to
    the same as offering all their bytes at once.
-/

namespace CircuitWitness

variable {c : Curve} {k : Kind}

/-! ## Sinks -/

namespace Sink

/-- How many more bytes the sink takes, if it has a limit. -/
def left? (s : Sink) : Option Nat := s.limit.map fun limit => limit - s.accepted.size

/-- As many of the bytes as the sink takes. -/
def cut (s : Sink) (offered : List UInt8) : List UInt8 :=
  match s.left? with
  | none => offered
  | some n => offered.take n

/-- The sink does not take that many bytes. -/
def Overflows (s : Sink) (n : Nat) : Prop := ∃ left, s.left? = some left ∧ left < n

/-- The sink has become `s'` by taking what it could of the bytes. -/
structure Took (s s' : Sink) (offered : List UInt8) : Prop where
  limit_eq : s'.limit = s.limit
  accepted_eq : s'.accepted.toList = s.accepted.toList ++ s.cut offered

variable {s s' mid : Sink} {a b : List UInt8}

theorem le_of_not_overflows {n left : Nat} (h : ¬s.Overflows n) (hleft : s.left? = some left) :
    n ≤ left := Nat.le_of_not_lt fun hlt => h ⟨left, hleft, hlt⟩

theorem cut_of_not_overflows (h : ¬s.Overflows a.length) : s.cut a = a := by
  unfold cut
  cases hleft : s.left? with
  | none => rfl
  | some n => exact List.take_of_length_le (le_of_not_overflows h hleft)

theorem took_nil (s : Sink) : s.Took s [] where
  limit_eq := rfl
  accepted_eq := by
    rw [cut_of_not_overflows fun ⟨_, _, habs⟩ => Nat.not_lt_zero _ habs, List.append_nil]

theorem took_write (s : Sink) (text : String) :
    s.Took (s.write text).2 (Text.bytes text).toList where
  limit_eq := rfl
  accepted_eq := by
    unfold write room cut left?
    cases s.limit with
    | none => simp
    | some limit => simp [List.take_eq_take_iff, Nat.min_comm]

theorem write_eq_false_iff {text : String} :
    (s.write text).1 = false ↔ s.Overflows (Text.bytes text).toList.length := by
  unfold write room Overflows left?
  cases s.limit with
  | none => simp
  | some limit => simp

/-- A sink that took all bytes has room for the others as if it had been offered both. -/
theorem Took.left?_eq (h : s.Took mid a) (hfits : ¬s.Overflows a.length) :
    mid.left? = s.left?.map fun n => n - a.length := by
  have haccepted := congrArg List.length h.accepted_eq
  rw [cut_of_not_overflows hfits, List.length_append, Array.length_toList,
    Array.length_toList] at haccepted
  unfold left?
  rw [h.limit_eq, haccepted]
  cases s.limit with
  | none => rfl
  | some limit => simp [Nat.sub_sub]

theorem Took.overflows_iff (h : s.Took mid a) (hfits : ¬s.Overflows a.length) :
    s.Overflows (a ++ b).length ↔ mid.Overflows b.length := by
  unfold Overflows
  rw [h.left?_eq hfits]
  cases hleft : s.left? with
  | none => simp
  | some n =>
    have hle := le_of_not_overflows hfits hleft
    simp only [Option.map_some, Option.some.injEq, exists_eq_left', List.length_append]
    omega

/-- Bytes that all fit, and then others. -/
theorem Took.append (h : s.Took mid a) (hfits : ¬s.Overflows a.length) (h' : mid.Took s' b) :
    s.Took s' (a ++ b) where
  limit_eq := h'.limit_eq.trans h.limit_eq
  accepted_eq := by
    -- the first part was taken whole, and the limit leaves the rest for the second
    have hcut : s.cut (a ++ b) = a ++ mid.cut b := by
      unfold cut
      rw [h.left?_eq hfits]
      cases hleft : s.left? with
      | none => rfl
      | some n =>
        have hle := le_of_not_overflows hfits hleft
        simp only [Option.map_some]
        rw [List.take_append, List.take_of_length_le hle]
    rw [h'.accepted_eq, h.accepted_eq, cut_of_not_overflows hfits, hcut, List.append_assoc]

theorem Overflows.append (h : s.Overflows a.length) (b : List UInt8) :
    s.Overflows (a ++ b).length := by
  obtain ⟨n, hleft, hlt⟩ := h
  rw [List.length_append]
  exact ⟨n, hleft, Nat.lt_add_right _ hlt⟩

/-- After bytes that did not fit nothing is taken. -/
theorem Took.stop (h : s.Took s' a) (hover : s.Overflows a.length) (b : List UInt8) :
    s.Took s' (a ++ b) where
  limit_eq := h.limit_eq
  accepted_eq := by
    obtain ⟨n, hleft, hlt⟩ := hover
    rw [h.accepted_eq]
    unfold cut
    rw [hleft]
    simp only
    rw [List.take_append_of_le_length (Nat.le_of_lt hlt)]

end Sink

/-! ## Lines -/

/-- The bytes of lines, each with its end. -/
def lineBytes (lines : List String) : List UInt8 :=
  lines.flatMap fun line => (Text.bytes (line ++ "\n")).toList

namespace Solution

variable {table : CoefficientTable c} {solution : Solution c}

/-- These are the lines of the entries. -/
def Renders (table : CoefficientTable c) (solution : Solution c) (entries : List LogEntry)
    (lines : List String) : Prop :=
  List.Forall₂ (fun entry line => solution.render table entry = .ok line) entries lines

theorem exists_renders {entries : List LogEntry}
    (h : ∀ entry ∈ entries, ∀ t ∈ entry.terms, t.isDelimiter = false →
      t.InBounds table solution.nWires) :
    ∃ lines, solution.Renders table entries lines := by
  obtain ⟨lines, hlines⟩ := exists_mapM fun entry hentry => exists_render (h entry hentry)
  exact ⟨lines, mapM_eq_ok_iff.1 hlines⟩

/-- Printing offers all lines to the sink, and says whether it took them. -/
theorem took_printLogs {entries : List LogEntry} {lines : List String}
    (h : solution.Renders table entries lines) (sink : Sink) :
    ∃ whole after, solution.printLogs table entries sink = (.ok whole, after) ∧
      sink.Took after (lineBytes lines) ∧
      (whole = false ↔ sink.Overflows (lineBytes lines).length) := by
  -- the lines that were taken leave less room for the others
  induction h generalizing sink with
  | nil =>
    refine ⟨true, sink, rfl, sink.took_nil, ?_⟩
    simp [lineBytes, Sink.Overflows]
  | @cons entry line entries lines hline hrest ih =>
    have htook := sink.took_write (line ++ "\n")
    have hwhole : (sink.write (line ++ "\n")).1 = false ↔ _ := Sink.write_eq_false_iff
    have hbytes : lineBytes (line :: lines) =
        (Text.bytes (line ++ "\n")).toList ++ lineBytes lines := List.flatMap_cons
    rw [printLogs, hline, hbytes]
    simp only
    cases hwrite : sink.write (line ++ "\n") with
    | mk taken mid =>
      rw [hwrite] at htook hwhole
      cases taken with
      | false =>
        have hover := hwhole.1 rfl
        refine ⟨false, mid, rfl, htook.stop hover _, ?_⟩
        simp only [true_iff]
        exact hover.append _
      | true =>
        have hfits : ¬sink.Overflows (Text.bytes (line ++ "\n")).toList.length := by
          simpa using hwhole
        obtain ⟨whole, after, hprint, htook', hwhole'⟩ := ih mid
        exact ⟨whole, after, hprint, htook.append hfits htook',
          hwhole'.trans (htook.overflows_iff hfits).symm⟩

end Solution

namespace Circuit

/-- The log entries refer to coefficients and wires that exist. -/
def LogsInBounds (s : Circuit c k) : Prop :=
  ∀ entry ∈ s.logs.toList, ∀ t ∈ entry.terms, t.isDelimiter = false →
    t.InBounds s.table s.nWires

/-- Whatever is solved, the logs can be printed. -/
theorem exists_printTo {s : Circuit c k} (hlogs : s.LogsInBounds) {solution : Solution c}
    (hn : solution.nWires = s.nWires) (logger : Option Sink) :
    ∃ whole after, s.printTo solution logger = (.ok whole, after) := by
  cases logger with
  | none => exact ⟨true, none, rfl⟩
  | some sink =>
    unfold LogsInBounds at hlogs
    rw [← hn] at hlogs
    obtain ⟨lines, hlines⟩ := Solution.exists_renders hlogs
    obtain ⟨whole, after, hprint, -⟩ := Solution.took_printLogs hlines sink
    exact ⟨whole, some after, by rw [printTo, hprint]⟩

end Circuit

end CircuitWitness
