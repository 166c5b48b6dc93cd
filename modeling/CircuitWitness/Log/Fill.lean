/-! # Placeholders

    A format is a text with `{}` placeholders.  They are filled from left to
    right in one pass: a piece is never looked into, and a placeholder without a
    piece stays.
-/

namespace CircuitWitness.Log

/-- The two characters of a placeholder. -/
def placeholder : List Char := ['\x7b', '\x7d']

/-- Fills the placeholders of a format. -/
def fill : (format : List Char) → (pieces : List (List Char)) → List Char
  | '\x7b' :: '\x7d' :: rest, [] => placeholder ++ fill rest []
  | '\x7b' :: '\x7d' :: rest, piece :: pieces => piece ++ fill rest pieces
  | ch :: rest, pieces => ch :: fill rest pieces
  | [], _ => []

/-- Fills the placeholders of a format. -/
def fillText (format : String) (pieces : List String) : String :=
  String.ofList (fill format.toList (pieces.map String.toList))

theorem fill_nil (pieces : List (List Char)) : fill [] pieces = [] := by
  simp [fill]

theorem fill_placeholder_nil (rest : List Char) :
    fill (placeholder ++ rest) [] = placeholder ++ fill rest [] := by
  simp [fill, placeholder]

theorem fill_placeholder_cons (rest piece : List Char) (pieces : List (List Char)) :
    fill (placeholder ++ rest) (piece :: pieces) = piece ++ fill rest pieces := by
  simp [fill, placeholder]

/-- A character that opens no placeholder is kept. -/
theorem fill_cons {ch : Char} {rest : List Char}
    (h : ¬(ch = '\x7b' ∧ rest.head? = some '\x7d')) (pieces : List (List Char)) :
    fill (ch :: rest) pieces = ch :: fill rest pieces := by
  refine fill.eq_3 _ _ _ ?_ ?_
  · rintro _ - rfl rfl
    exact h ⟨rfl, rfl⟩
  · rintro _ _ _ - rfl rfl
    exact h ⟨rfl, rfl⟩

end CircuitWitness.Log
