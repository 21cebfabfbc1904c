import TurtleGraphics.Decimal.Fixed
import TurtleGraphics.Run

/-!
# Drawings

The steps of a run as an SVG document: a line for every move with the pen down and a dot where the
turtle ends. In the plane y grows upwards and in the document downwards, so every y is negated. The
view holds the origin and all recorded positions, with a margin around them.
-/

namespace TurtleGraphics

/-- A box with sides along the axes. -/
structure Box where
  minX : Float
  minY : Float
  maxX : Float
  maxY : Float
deriving Repr

/-- The lesser of two numbers; a number is preferred to what is none. -/
def lesser (a b : Float) : Float := if b < a || a.isNaN then b else a

/-- The greater of two numbers; a number is preferred to what is none. -/
def greater (a b : Float) : Float := if a < b || a.isNaN then b else a

namespace Box

/-- The box of the origin alone. -/
def origin : Box := ⟨0, 0, 0, 0⟩

/-- The box stretched to reach a position. -/
def add (b : Box) (c : Cursor) : Box :=
  ⟨lesser b.minX c.x, lesser b.minY c.y, greater b.maxX c.x, greater b.maxY c.y⟩

/-- The box of the origin and the positions of all steps. -/
def ofSteps (steps : List Step) : Box := steps.foldl (fun b s ↦ b.add s.cursor) origin

end Box

namespace Drawing

/-- The distance between the positions and the edge of the view. -/
def margin : Float := 20

/-- A coordinate as it is written in the document. -/
def coordinate (x : Float) : String := Decimal.fixed 3 x

end Drawing

/-- A part of the plane of a document, from its upper left corner on. -/
structure View (α : Type) where
  left : α
  top : α
  width : α
  height : α
deriving Repr

namespace View

/-- The view with the given margin around a box. The plane of a document grows downwards, so the
greatest ordinate is at the top. -/
def ofSides {α : Type} [Neg α] [Add α] [Sub α] [Mul α] [OfNat α 2]
    (margin minX minY maxX maxY : α) : View α where
  left := minX - margin
  top := -maxY - margin
  width := (maxX - minX) + 2 * margin
  height := (maxY - minY) + 2 * margin

/-- The view as a document gives it. -/
def text (v : View Float) : String :=
  Drawing.coordinate v.left ++ " " ++ Drawing.coordinate v.top ++ " " ++
    Drawing.coordinate v.width ++ " " ++ Drawing.coordinate v.height

end View

/-- The view of a drawing with the given box. -/
def Box.view (b : Box) : View Float := .ofSides Drawing.margin b.minX b.minY b.maxX b.maxY

namespace Drawing

/-- How a character is written inside an attribute. -/
def escapeChar : Char → List Char
  | '&' => ['&', 'a', 'm', 'p', ';']
  | '<' => ['&', 'l', 't', ';']
  | '>' => ['&', 'g', 't', ';']
  | '"' => ['&', 'q', 'u', 'o', 't', ';']
  | '\'' => ['&', 'a', 'p', 'o', 's', ';']
  | c => [c]

/-- A text as it is written inside an attribute. -/
def escape (s : String) : String := String.ofList (s.toList.flatMap escapeChar)

/-- The opening tag of the document. -/
def header (b : Box) : String :=
  "<svg xmlns=\"http://www.w3.org/2000/svg\" viewBox=\"" ++ b.view.text ++ "\">\n"

/-- Whether the way from one cursor to the next is drawn: the pen is down and the place changes. -/
def isDrawn (start stop : Cursor) : Bool :=
  stop.penDown && !(start.x == stop.x && start.y == stop.y)

/-- The line from one cursor to the next, in the colour of the latter. -/
def line (start stop : Cursor) : String :=
  "  <line x1=\"" ++ coordinate start.x ++ "\" y1=\"" ++ coordinate (-start.y) ++
    "\" x2=\"" ++ coordinate stop.x ++ "\" y2=\"" ++ coordinate (-stop.y) ++
    "\" stroke=\"" ++ escape stop.color ++
    "\" stroke-width=\"2\" stroke-linecap=\"round\"/>\n"

/-- The dot where the turtle ends. -/
def dot (last : Cursor) : String :=
  "  <circle cx=\"" ++ coordinate last.x ++ "\" cy=\"" ++ coordinate (-last.y) ++
    "\" r=\"4\" fill=\"" ++ escape last.color ++ "\"/>\n"

/-- Each cursor with the next one. -/
def pairs (cursors : List Cursor) : List (Cursor × Cursor) := cursors.zip cursors.tail

/-- The lines of the drawing, in order. -/
def lines (cursors : List Cursor) : List String :=
  ((pairs cursors).filter fun p ↦ isDrawn p.1 p.2).map fun p ↦ line p.1 p.2

/-- The document that shows the steps. -/
def render (steps : List Step) : String :=
  let cursors := steps.map Step.cursor
  header (.ofSteps steps) ++ String.join (lines cursors) ++
    (cursors.getLast?.map dot).getD "" ++ "</svg>\n"

end Drawing

end TurtleGraphics
