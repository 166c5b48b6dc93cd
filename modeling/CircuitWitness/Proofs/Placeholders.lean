import CircuitWitness.Log.Fill
import Mathlib.Data.List.Infix

/-! # Formats filled in one pass

    A format is cut at its placeholders: at the leftmost one (`Log.Leftmost`), then
    what follows it in the same way, until nothing is left but a text without one
    (`Log.Cut`).  There is exactly one such cut, and it does not look at the pieces.

    Filling goes in rounds.  A round writes the text up to the next placeholder and one
    piece in its place (`Log.fill_leftmost`), and goes on behind the placeholder, so it
    never comes back to what is written.  After any number of rounds the rest of the
    format is left for the rest of the pieces (`Log.Cut.fill_rounds`), and the last
    text is written as it is.
-/

namespace CircuitWitness

namespace Log

/-! ## The leftmost placeholder -/

/-- The placeholder between the two texts is the leftmost one. -/
def Leftmost (before rest : List Char) : Prop :=
  ∀ before' rest', before ++ placeholder ++ rest = before' ++ placeholder ++ rest' →
    before.length ≤ before'.length

theorem Leftmost.of_cons {ch : Char} {before rest : List Char}
    (h : Leftmost (ch :: before) rest) : Leftmost before rest := by
  intro before' rest' heq
  have hlen := h (ch :: before') rest' (by simpa using heq)
  simpa using hlen

/-- The leftmost placeholder is past the first character if none is there. -/
theorem Leftmost.cons {ch : Char} {before rest : List Char}
    (hfirst : ¬placeholder <+: ch :: (before ++ placeholder ++ rest))
    (h : Leftmost before rest) : Leftmost (ch :: before) rest := by
  intro before' rest' heq
  cases before' with
  | nil => exact absurd ⟨rest', heq.symm⟩ hfirst
  | cons ch' before' =>
    have hlen := h before' rest' (List.cons.inj heq).2
    simpa using hlen

theorem Leftmost.unique {before rest before' rest' : List Char} (h : Leftmost before rest)
    (h' : Leftmost before' rest')
    (heq : before ++ placeholder ++ rest = before' ++ placeholder ++ rest') :
    before = before' ∧ rest = rest' := by
  have hlen : before.length = before'.length := Nat.le_antisymm (h _ _ heq) (h' _ _ heq.symm)
  rw [List.append_assoc, List.append_assoc] at heq
  obtain ⟨hbefore, hrest⟩ := List.append_inj heq hlen
  exact ⟨hbefore, List.append_cancel_left hrest⟩

theorem exists_leftmost {text : List Char} (h : placeholder <:+: text) :
    ∃ before rest, text = before ++ placeholder ++ rest ∧ Leftmost before rest := by
  induction text with
  | nil => exact absurd (List.infix_nil.1 h) (List.cons_ne_nil _ _)
  | cons ch others ih =>
    by_cases hfirst : placeholder <+: ch :: others
    · obtain ⟨rest, hrest⟩ := hfirst
      exact ⟨[], rest, hrest.symm, fun _ _ _ => Nat.zero_le _⟩
    · obtain ⟨before, rest, rfl, hleft⟩ := ih ((List.infix_cons_iff.1 h).resolve_left hfirst)
      exact ⟨ch :: before, rest, rfl, hleft.cons hfirst⟩

/-! ## The cut of a format -/

/-- A text is cut at its leftmost placeholder, and what follows it in the same way. -/
inductive Cut : (text : List Char) → (parts : List (List Char)) → (last : List Char) → Prop
  /-- A text without a placeholder is not cut. -/
  | whole {text : List Char} (hfree : ¬placeholder <:+: text) : Cut text [] text
  /-- The first part ends at the leftmost placeholder. -/
  | next {text before rest : List Char} {parts : List (List Char)} {last : List Char}
      (heq : text = before ++ placeholder ++ rest) (hleft : Leftmost before rest)
      (hrest : Cut rest parts last) : Cut text (before :: parts) last

theorem exists_cut (text : List Char) : ∃ parts last, Cut text parts last := by
  by_cases h : placeholder <:+: text
  · -- what follows the leftmost placeholder is shorter
    obtain ⟨before, rest, heq, hleft⟩ := exists_leftmost h
    have hlen : rest.length < text.length := by
      rw [heq, List.length_append, List.length_append, placeholder, List.length_cons]
      omega
    obtain ⟨parts, last, hrest⟩ := exists_cut rest
    exact ⟨before :: parts, last, .next heq hleft hrest⟩
  · exact ⟨[], text, .whole h⟩
termination_by text.length

namespace Cut

variable {text last : List Char} {parts : List (List Char)}

theorem unique {parts' : List (List Char)} {last' : List Char} (h : Cut text parts last)
    (h' : Cut text parts' last') : parts' = parts ∧ last' = last := by
  -- each cut ends at a part without a placeholder or goes on at the leftmost one
  induction h generalizing parts' last' with
  | whole hfree =>
    cases h' with
    | whole => exact ⟨rfl, rfl⟩
    | next heq => exact absurd ⟨_, _, heq.symm⟩ hfree
  | next heq hleft _ ih =>
    cases h' with
    | whole hfree => exact absurd ⟨_, _, heq.symm⟩ hfree
    | next heq' hleft' hrest' =>
      obtain ⟨rfl, rfl⟩ := hleft.unique hleft' (heq.symm.trans heq')
      obtain ⟨rfl, rfl⟩ := ih hrest'
      exact ⟨rfl, rfl⟩

/-- A cut loses nothing of the text but the placeholders. -/
theorem joined (h : Cut text parts last) : parts.flatMap (· ++ placeholder) ++ last = text := by
  induction h with
  | whole => rfl
  | next heq _ _ ih => rw [List.flatMap_cons, List.append_assoc, ih, heq]

/-- The last text has no placeholder any more. -/
theorem last_free (h : Cut text parts last) : ¬placeholder <:+: last := by
  induction h with
  | whole hfree => exact hfree
  | next _ _ _ ih => exact ih

end Cut

/-! ## Rounds -/

/-- Parts with what stands behind each: the piece at its position, or a placeholder where
    the pieces have come to their end. -/
def written (parts pieces : List (List Char)) : List Char :=
  (parts.mapIdx fun i part => part ++ pieces.getD i placeholder).flatten

theorem written_cons (part : List Char) (parts pieces : List (List Char)) :
    written (part :: parts) pieces =
      part ++ pieces.headD placeholder ++ written parts pieces.tail := by
  rw [written, List.mapIdx_cons, List.flatten_cons]
  cases pieces with
  | nil => rfl
  | cons piece pieces => rfl

/-- Pieces past the last part are not looked at. -/
theorem written_take (parts pieces : List (List Char)) :
    written parts (pieces.take parts.length) = written parts pieces := by
  induction parts generalizing pieces with
  | nil => rfl
  | cons part parts ih =>
    cases pieces with
    | nil => rw [List.take_nil]
    | cons piece pieces =>
      rw [List.length_cons, List.take_succ_cons, written_cons, written_cons, List.tail_cons,
        List.tail_cons, ih pieces]
      rfl

theorem fill_free {text : List Char} (hfree : ¬placeholder <:+: text)
    (pieces : List (List Char)) : fill text pieces = text := by
  induction text with
  | nil => exact fill_nil pieces
  | cons ch others ih =>
    rw [List.infix_cons_iff, not_or] at hfree
    rw [fill_cons _ pieces, ih hfree.2]
    rintro ⟨rfl, hnext⟩
    obtain ⟨tail, rfl⟩ := List.head?_eq_some_iff.1 hnext
    exact hfree.1 ⟨tail, rfl⟩

/-- A round: the text up to the leftmost placeholder, then a piece in its place. -/
theorem fill_leftmost {before rest : List Char} (hleft : Leftmost before rest)
    (pieces : List (List Char)) :
    fill (before ++ placeholder ++ rest) pieces =
      before ++ pieces.headD placeholder ++ fill rest pieces.tail := by
  induction before with
  | nil =>
    cases pieces with
    | nil => exact fill_placeholder_nil rest
    | cons piece pieces => exact fill_placeholder_cons rest piece pieces
  | cons ch before ih =>
    rw [List.cons_append, List.cons_append, fill_cons _ pieces, ih hleft.of_cons]
    · rfl
    · -- a placeholder at the first character would be further left
      rintro ⟨rfl, hnext⟩
      obtain ⟨tail, htail⟩ := List.head?_eq_some_iff.1 hnext
      have hlen := hleft [] tail (by rw [List.cons_append, List.cons_append, htail]; rfl)
      exact absurd hlen (by simp)

/-- After some rounds their parts are written, and the rest of the format is filled with
    the rest of the pieces. -/
theorem Cut.fill_rounds {text last : List Char} {parts : List (List Char)}
    (h : Cut text parts last) (pieces : List (List Char)) (i : Nat) :
    fill text pieces = written (parts.take i) pieces ++
      fill ((parts.drop i).flatMap (· ++ placeholder) ++ last) (pieces.drop i) := by
  induction i generalizing text parts pieces with
  | zero =>
    rw [List.take_zero, List.drop_zero, List.drop_zero, h.joined]
    rfl
  | succ i ih =>
    cases h with
    | whole hfree => exact (fill_free hfree pieces).trans (fill_free hfree _).symm
    | next heq hleft hrest =>
      -- the first round fills the leftmost placeholder, and the others the rest
      rw [heq, fill_leftmost hleft, ih hrest, List.take_succ_cons, List.drop_succ_cons,
        written_cons, List.append_assoc, List.append_assoc, List.append_assoc, List.drop_tail]

/-- After all rounds only the last text is left, and it is written as it is. -/
theorem Cut.fill_eq {text last : List Char} {parts : List (List Char)}
    (h : Cut text parts last) (pieces : List (List Char)) :
    fill text pieces = written parts pieces ++ last := by
  rw [h.fill_rounds pieces parts.length, List.take_length, List.drop_length, List.flatMap_nil,
    List.nil_append, fill_free h.last_free]

end Log

open Log in
/-- A format is cut in one way, by its own placeholders, and the cut is all of it.  The line
    is made up of the parts, each with its piece behind it, and the last text; pieces past
    the parts are not looked at.  What a round has written is not read again: after any
    number of them the line goes on with the rest of the format, filled with the rest of
    the pieces. -/
theorem placeholders_filled (format : String) :
    ∃ (parts : List (List Char)) (last : List Char),
      (∀ parts' last', Cut format.toList parts' last' ↔ parts' = parts ∧ last' = last) ∧
      parts.flatMap (· ++ placeholder) ++ last = format.toList ∧
      ∀ pieces : List String,
        (fillText format pieces).toList = written parts (pieces.map String.toList) ++ last ∧
        fillText format (pieces.take parts.length) = fillText format pieces ∧
        ∀ i, (fillText format pieces).toList =
          written (parts.take i) (pieces.map String.toList) ++
            fill ((parts.drop i).flatMap (· ++ placeholder) ++ last)
              ((pieces.drop i).map String.toList) := by
  obtain ⟨parts, last, hcut⟩ := exists_cut format.toList
  have hline : ∀ pieces : List String,
      (fillText format pieces).toList = written parts (pieces.map String.toList) ++ last :=
    fun pieces => String.toList_ofList.trans (hcut.fill_eq _)
  -- the parts are determined by the format, so that they serve for any pieces
  refine ⟨parts, last, ?_, hcut.joined, fun pieces => ⟨hline pieces, ?_, ?_⟩⟩
  · intro parts' last'
    constructor
    · exact hcut.unique
    · rintro ⟨rfl, rfl⟩
      exact hcut
  · rw [← String.toList_inj, hline, hline, List.map_take, written_take]
  · intro i
    rw [List.map_drop, ← hcut.fill_rounds]
    exact String.toList_ofList

/-- The first piece and what follows it make up a placeholder, which stays. -/
example : Log.fillText "\x7b\x7b\x7d\x7d \x7b\x7d" ["\x7b", "-", "5"] = "\x7b\x7b\x7d -" := rfl

end CircuitWitness
