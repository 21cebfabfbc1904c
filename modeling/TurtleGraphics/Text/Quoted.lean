import TurtleGraphics.Text.Graphic

/-!
# Quoted text in messages

A message shows a piece of text between double quotes, and what would not show there as itself is
escaped: the quote and the backslash, the control characters with a letter of their own, and every
other character without a mark by its code point.
-/

namespace TurtleGraphics.Text

/-- The code point in lower-case hexadecimal digits, none of them superfluous. -/
def hexDigits (n : Nat) : List Char := Nat.toDigits 16 n

/-- How one character is written between double quotes. -/
def escapeChar (c : Char) : List Char :=
  if c = '"' then ['\\', '"']
  else if c = '\\' then ['\\', '\\']
  else if c = '\n' then ['\\', 'n']
  else if c = '\r' then ['\\', 'r']
  else if c = '\t' then ['\\', 't']
  else if c.toNat = 0 then ['\\', '0']
  else if isGraphic c then [c]
  else ['\\', 'u', '{'] ++ hexDigits c.toNat ++ ['}']

/-- The text between double quotes, escaped where it has to be. -/
def quoted (s : String) : String :=
  String.ofList ('"' :: s.toList.flatMap escapeChar ++ ['"'])

end TurtleGraphics.Text
