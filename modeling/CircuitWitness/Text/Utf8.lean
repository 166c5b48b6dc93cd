/-! # Text cut by bytes

    A text that was cut off after some number of bytes may end inside of a
    character.  It is read up to there, and the replacement character stands for
    what is left of the last one.
-/

namespace CircuitWitness.Text

/-- The bytes of a text. -/
def bytes (s : String) : Array UInt8 := s.toUTF8.data

/-- Reads bytes after dropping `n` of them at the end, and up to `more` others
    until whole characters are left.  Something was cut if `n` is not zero. -/
def readDropping (bytes : Array UInt8) (n : Nat) : (more : Nat) → String
  | 0 => "\ufffd"
  | more + 1 =>
    match String.fromUTF8? ⟨bytes.extract 0 (bytes.size - n)⟩ with
    -- a character has at most four bytes, so at most three of them are cut off
    | some s => if n = 0 then s else s ++ "\ufffd"
    | none => readDropping bytes (n + 1) more

/-- Reads a text that may be cut off inside of a character. -/
def readCut (bytes : Array UInt8) : String := readDropping bytes 0 4

end CircuitWitness.Text
