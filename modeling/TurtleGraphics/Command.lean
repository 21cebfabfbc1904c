/-!
# Commands

What a turtle can be told, and the words for it. Every word belongs to one kind of command, and most
kinds have a long and a short word.
-/

namespace TurtleGraphics

/-- One order to the turtle. Distances are in the units of the plane, angles in degrees. -/
inductive Command where
  | forward (distance : Float)
  | backward (distance : Float)
  /-- Turn counter-clockwise. -/
  | left (angle : Float)
  /-- Turn clockwise. -/
  | right (angle : Float)
  | penColor (color : String)
  | penUp
  | penDown
deriving DecidableEq, Repr

/-- The kinds of commands, whatever word was written for them. -/
inductive Keyword where
  | forward
  | backward
  | left
  | right
  | penColor
  | penUp
  | penDown
deriving DecidableEq, Repr

namespace Keyword

/-- The words for each kind of command. -/
def words : List (String × Keyword) :=
  [("forward", forward), ("fd", forward),
    ("backward", backward), ("back", backward), ("bk", backward),
    ("left", left), ("lt", left),
    ("right", right), ("rt", right),
    ("pencolor", penColor), ("color", penColor),
    ("penup", penUp), ("pu", penUp),
    ("pendown", penDown), ("pd", penDown)]

/-- The kind of command that `word` stands for. Case matters. -/
def ofWord? (word : String) : Option Keyword := words.lookup word

/-- The loop word stands for no command. -/
theorem ofWord?_for : ofWord? "for" = none := by decide

/-- No two entries have the same word. -/
theorem nodup_words : (words.map Prod.fst).Nodup := by decide

end Keyword

end TurtleGraphics
