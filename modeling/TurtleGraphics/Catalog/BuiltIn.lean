import TurtleGraphics.Catalog

/-!
# The levels of the game

The five levels that are there when no other catalog is asked for.
-/

namespace TurtleGraphics.Catalog

/-- Level 1: straight line. -/
def firstSteps : Level where
  id := 1
  title := "First Steps"
  description :=
    "Welcome to the dojo! Start by moving the turtle forward. Type `forward(100)` to draw " ++
      "a line."
  targetShape := "Straight line"
  initialScript := "# your code goes here"
  solutionScript := "forward(100)"
  hints :=
    ["`forward(distance)` moves the turtle.",
      "A distance of about 100 is just right."]
  goal := { minPathLength := 100, exactTurns := some 0 }

/-- Level 2: an L shape. -/
def aroundTheCorner : Level where
  id := 2
  title := "Around the Corner"
  description :=
    "Time to practise turning. Move forward, turn right by 90 degrees, then move forward " ++
      "again to draw an L."
  targetShape := "L shape"
  initialScript := "# your code goes here\n"
  solutionScript := "forward(100)\nright(90)\nforward(100)"
  hints :=
    ["`right(90)` turns right by 90 degrees.",
      "Don't forget to move again after turning."]
  goal := { minPathLength := 200, exactTurns := some 90 }

/-- Level 3: square. -/
def theWayOfTheSquare : Level where
  id := 3
  title := "The Way of the Square"
  description :=
    "Use a loop to draw a square. The same move repeats four times, so a `for` loop is " ++
      "handy."
  targetShape := "Square"
  initialScript := "# try the loop block\nfor i in range(4):\n    pass"
  solutionScript := "for i in range(4):\n    forward(100)\n    right(90)"
  hints :=
    ["A square has four sides and four corners.",
      "Each corner is 90 degrees.",
      "Put a move and a turn inside the loop."]
  goal := { minPathLength := 400, minTurns := some 270, homeTolerance := some 5 }

/-- Level 4: equilateral triangle. -/
def trianglePower : Level where
  id := 4
  title := "Triangle Power"
  description := "Draw an equilateral triangle. The outer angle is 120 degrees (360 / 3)."
  targetShape := "Equilateral triangle"
  initialScript := "for i in range(3):\n    # fill in the body"
  solutionScript := "for i in range(3):\n    forward(150)\n    left(120)"
  hints :=
    ["Turn by 120 degrees, not 60.",
      "Use a loop that repeats three times."]
  goal := { minPathLength := 300, minTurns := some 240, homeTolerance := some 5 }

/-- Level 5: regular pentagon. -/
def pentagonPatrol : Level where
  id := 5
  title := "Pentagon Patrol"
  description := "Draw a regular pentagon. The angle is 360 / 5."
  targetShape := "Regular pentagon"
  initialScript := "# 360 / 5 = 72 degrees\n"
  solutionScript := "for i in range(5):\n    forward(100)\n    right(72)"
  hints :=
    ["360 divided by 5 is 72.",
      "You need to repeat five times."]
  goal := { minPathLength := 500, minTurns := some 288, homeTolerance := some 5 }

/-- The catalog of the game. -/
def builtIn : Catalog :=
  [firstSteps, aroundTheCorner, theWayOfTheSquare, trianglePower, pentagonPatrol]

example : builtIn.map Level.id = [1, 2, 3, 4, 5] := rfl

end TurtleGraphics.Catalog
