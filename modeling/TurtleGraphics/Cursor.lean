import TurtleGraphics.Command

/-!
# The cursor

Where the turtle stands, where it faces and how it draws, and what each command changes about that.
A command has an effect that is relative to the cursor; applying the effect gives the next cursor.
Headings are degrees counter-clockwise from the x axis and are never reduced to one turn.
-/

namespace TurtleGraphics

/-- The state of the turtle. -/
structure Cursor where
  x : Float
  y : Float
  heading : Float
  penDown : Bool
  color : String
deriving DecidableEq, Repr

/-- The colour of a fresh cursor when none is asked for. -/
def defaultColor : String := "#34d399"

/-- The cursor at the beginning of a run: at the origin, facing up, its pen down. -/
def Cursor.fresh (color : String) : Cursor :=
  { x := 0, y := 0, heading := 90, penDown := true, color }

/-- The two sums that are kept over a run. -/
inductive Metric where
  | pathLength
  | totalTurns
deriving DecidableEq, Repr

/-- What a command does to a cursor. -/
structure Effect where
  dx : Float := 0
  dy : Float := 0
  headingDelta : Float := 0
  color : Option String := none
  penDown : Option Bool := none
  /-- The sum that the magnitude is added to. -/
  metric : Option Metric := none
  magnitude : Float := 0
deriving Repr

/-- One degree in radians. -/
def radiansPerDegree : Float := 0.017453292519943295

namespace Effect

/-- A move along the heading, against it if the distance is negative. -/
def travel (heading distance : Float) : Effect :=
  let angle := heading * radiansPerDegree
  { dx := angle.cos * distance, dy := angle.sin * distance,
    metric := some .pathLength, magnitude := distance.abs }

/-- A turn, counter-clockwise if the angle is positive. -/
def turn (angle : Float) : Effect :=
  { headingDelta := angle, metric := some .totalTurns, magnitude := angle.abs }

end Effect

/-- What the command does when it is given with the turtle at `cursor`. -/
def Command.effect (cursor : Cursor) : Command → Effect
  | forward distance => .travel cursor.heading distance
  | backward distance => .travel cursor.heading (-distance)
  | left angle => .turn angle
  | right angle => .turn (-angle)
  | penColor color => { color := some color }
  | penUp => { penDown := some false }
  | penDown => { penDown := some true }

/-- The cursor after the effect. -/
def Cursor.apply (cursor : Cursor) (effect : Effect) : Cursor :=
  { x := cursor.x + effect.dx
    y := cursor.y + effect.dy
    heading := cursor.heading + effect.headingDelta
    penDown := effect.penDown.getD cursor.penDown
    color := effect.color.getD cursor.color }

end TurtleGraphics
