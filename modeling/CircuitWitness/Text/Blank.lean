/-! # Blank characters

    The characters with the White_Space property of the Unicode standard, and
    texts without the blank characters at their ends.
-/

namespace CircuitWitness.Text

/-- The ranges of the White_Space property. -/
def blankRanges : List (Nat × Nat) :=
  [(0x9, 0xd), (0x20, 0x20), (0x85, 0x85), (0xa0, 0xa0), (0x1680, 0x1680), (0x2000, 0x200a),
   (0x2028, 0x2029), (0x202f, 0x202f), (0x205f, 0x205f), (0x3000, 0x3000)]

/-- The character is blank. -/
def isBlank (ch : Char) : Bool :=
  blankRanges.any fun r => decide (r.1 ≤ ch.toNat) && decide (ch.toNat ≤ r.2)

/-- Drops the blank characters at both ends. -/
def trim (s : List Char) : List Char :=
  ((s.dropWhile isBlank).reverse.dropWhile isBlank).reverse

end CircuitWitness.Text
