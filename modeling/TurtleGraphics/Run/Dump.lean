import TurtleGraphics.Json.Printer
import TurtleGraphics.Run

/-!
# Runs as data

A run as one JSON object: its steps, its fault in one sentence or `null`, and its two sums.
-/

namespace TurtleGraphics

/-- A float as a JSON number. -/
def Json.ofFloat (x : Float) : Json := .number (.decimal x)

/-- A step as a JSON object. -/
def Step.toJson (s : Step) : Json :=
  .object
    [("id", .number (.whole s.id)),
      ("x", .ofFloat s.cursor.x),
      ("y", .ofFloat s.cursor.y),
      ("heading", .ofFloat s.cursor.heading),
      ("penDown", .bool s.cursor.penDown),
      ("color", .string s.cursor.color)]

namespace Run

/-- A run as a JSON object. -/
def toJson (r : Run) : Json :=
  .object
    [("steps", .array (r.steps.map Step.toJson)),
      ("error", (r.fault.map fun fault ↦ Json.string fault.message).getD .null),
      ("pathLength", .ofFloat r.pathLength),
      ("totalTurns", .ofFloat r.totalTurns)]

/-- A run as JSON text. -/
def dump (r : Run) : String := r.toJson.text

end Run

end TurtleGraphics
