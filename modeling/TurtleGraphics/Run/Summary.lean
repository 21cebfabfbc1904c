import TurtleGraphics.Decimal.Layout
import TurtleGraphics.Run

/-!
# Runs in a few lines

How many steps a run took, its sums, where the turtle ended and the fault if it met one.
-/

namespace TurtleGraphics

/-- A length or an angle in a summary. -/
def rounded (x : Float) : String := Decimal.fixed 2 x

/-- The line about the last cursor. -/
def Cursor.summary (c : Cursor) : String :=
  let pen := if c.penDown then "down" else "up"
  let heading := Decimal.Layout.plain.text c.heading
  s!"final state: ({rounded c.x}, {rounded c.y}) heading {heading} pen {pen} colour {c.color}\n"

/-- The lines about a run. -/
def Run.summary (r : Run) : String :=
  s!"steps:       {r.steps.length}\n" ++
    s!"path length: {rounded r.pathLength}\n" ++
    s!"total turns: {rounded r.totalTurns}\n" ++
    (r.final?.map Cursor.summary).getD "" ++
    (r.fault.map fun fault ↦ s!"error:       {fault.message}\n").getD ""

end TurtleGraphics
