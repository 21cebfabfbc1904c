import TurtleGraphics.Run

/-!
# Levels

A level sets a figure to draw and says by its goal when a run has drawn it. The goal looks at the
two sums of the run and at where the turtle ends, not at the drawing itself.
-/

namespace TurtleGraphics

/-- When a drawing is accepted. A part that is not given asks for nothing. -/
@[ext]
structure Goal where
  minPathLength : Float := 0
  exactTurns : Option Float := none
  minTurns : Option Float := none
  /-- How near to the origin, in each coordinate, the turtle has to end. -/
  homeTolerance : Option Float := none
deriving Repr

/-- Whether a run with these sums that ends at `last` meets the goal. -/
def Goal.isMet (g : Goal) (last : Cursor) (pathLength totalTurns : Float) : Bool :=
  g.minPathLength ≤ pathLength &&
    g.exactTurns.all (totalTurns == ·) &&
    g.minTurns.all (· ≤ totalTurns) &&
    g.homeTolerance.all (fun tolerance ↦ last.x.abs < tolerance && last.y.abs < tolerance)

/-- One level of the game. -/
structure Level where
  id : Nat
  title : String
  description : String
  targetShape : String
  initialScript : String
  solutionScript : String
  hints : List String := []
  goal : Goal
deriving Repr

/-- What a level says about a run. -/
inductive Verdict where
  | solved
  | unsolved
  /-- The run met a fault, and its sums count for nothing. -/
  | errored (reason : String)
deriving DecidableEq, Repr

namespace Level

/-- The verdict on a run. -/
def evaluate (level : Level) (r : Run) : Verdict :=
  match r.fault with
  | some fault => .errored fault.message
  | none =>
    match r.final? with
    | none => .unsolved
    | some last => if level.goal.isMet last r.pathLength r.totalTurns then .solved else .unsolved

/-- The steps of the level's own solution. -/
def preview (level : Level) : List Step := (Run.ofScript level.solutionScript).steps

end Level

end TurtleGraphics
