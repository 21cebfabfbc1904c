/-!
# Text in columns

A column has a width in characters. What is shorter is filled up with spaces, and what is longer is
left as it is.
-/

namespace TurtleGraphics.Text

/-- Spaces in a row. -/
def spaces (n : Nat) : List Char := List.replicate n ' '

/-- The text at the right end of its column. -/
def padLeft (width : Nat) (s : String) : String :=
  String.ofList (spaces (width - s.length) ++ s.toList)

/-- The text at the left end of its column. -/
def padRight (width : Nat) (s : String) : String :=
  String.ofList (s.toList ++ spaces (width - s.length))

/-- The text with every line but the first moved to the right. -/
def hangIndent (width : Nat) (s : String) : String :=
  String.ofList (List.intercalate ('\n' :: spaces width) (s.toList.splitOn '\n'))

example : hangIndent 2 "a\nb\n" = "a\n  b\n  " := by decide +kernel

end TurtleGraphics.Text
