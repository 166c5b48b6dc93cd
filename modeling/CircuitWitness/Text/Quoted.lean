import CircuitWitness.Text.Visible

/-! # Quoted texts

    A text between double quotes, on one line and with nothing hidden.  The
    quote, the backslash and the usual controls are written with a backslash and
    a letter; every other character that is not visible is written as its code
    point in hexadecimal digits.
-/

namespace CircuitWitness.Text

/-- The code point of a character, as an escape. -/
def codePointEscape (ch : Char) : List Char :=
  ['\\', 'u', '\x7b'] ++ Nat.toDigits 16 ch.toNat ++ ['\x7d']

/-- A character inside of quotes. -/
def quoteChar (ch : Char) : List Char :=
  if ch = '\x00' then ['\\', '0']
  else if ch = '\t' then ['\\', 't']
  else if ch = '\r' then ['\\', 'r']
  else if ch = '\n' then ['\\', 'n']
  else if ch = '"' then ['\\', '"']
  else if ch = '\\' then ['\\', '\\']
  else if isVisible ch then [ch]
  else codePointEscape ch

/-- A text between quotes. -/
def quote (s : String) : String :=
  String.ofList ('"' :: (s.toList.flatMap quoteChar ++ ['"']))

end CircuitWitness.Text
