import TurtleGraphics.Statement
import TurtleGraphics.Text.Blank

/-!
# Lines of a script

A script is split at its newlines. A line keeps its number, how far it is indented and its text
without the blanks around it. Only spaces and tabs indent.
-/

namespace TurtleGraphics

/-- One line of a script. -/
structure Line where
  /-- Counted from 1. -/
  number : Nat
  /-- How many spaces and tabs stand at its beginning. -/
  indent : Nat
  /-- The line without the blanks at either end. -/
  text : String
deriving DecidableEq, Repr

namespace Line

/-- Whether `c` at the beginning of a line indents it. -/
def indents (c : Char) : Bool := c = ' ' || c = '\t'

/-- The line with the given characters. -/
def ofChars (number : Nat) (cs : List Char) : Line :=
  ⟨number, (cs.takeWhile indents).length, String.ofList (Text.trim cs)⟩

/-- The lines with the given characters each, numbered from `first` on. -/
def ofPieces (first : Nat) : List (List Char) → List Line
  | [] => []
  | cs :: rest => ofChars first cs :: ofPieces (first + 1) rest

/-- The lines of a script. -/
def ofScript (script : String) : List Line := ofPieces 1 (script.toList.splitOn '\n')

/-- What the line says. -/
def statement (l : Line) : Except Fault Statement := Statement.ofString l.number l.text

/-- Whether the line begins with the word that opens a loop. -/
def opensLoop (l : Line) : Bool := (Tokens.ofString l.text).opensLoop

/-- Whether the line goes on the body of a loop: it is indented or holds nothing. -/
def inBody (l : Line) : Bool := l.text = "" || 0 < l.indent

theorem length_ofPieces (first : Nat) (ps : List (List Char)) :
    (ofPieces first ps).length = ps.length := by
  induction ps generalizing first with
  | nil => rfl
  | cons p ps ih => simp [ofPieces, ih]

/-- The lines are numbered in order. -/
theorem number_ofPieces {first i : Nat} {ps : List (List Char)} {l : Line}
    (h : (ofPieces first ps)[i]? = some l) : l.number = first + i := by
  induction ps generalizing first i with
  | nil => simp [ofPieces] at h
  | cons p ps ih =>
    cases i with
    | zero =>
      simp only [ofPieces, List.getElem?_cons_zero, Option.some.injEq] at h
      simp [← h, ofChars]
    | succ i =>
      simp only [ofPieces, List.getElem?_cons_succ] at h
      rw [ih h]; omega

end Line

end TurtleGraphics
