import TurtleGraphics.Script.Line

/-!
# Sections of a script

A script falls into single lines and loops. A loop is a header with the longest run of lines after
it that are indented or hold nothing, so its body ends before the first line with text in column 0.
There is one level of loops only. Main statement: the sections of a script hold its lines, each once
and in order (`flatMap_lines_sections`).
-/

namespace TurtleGraphics

/-- The body of a loop whose header stands before the given lines. -/
def Line.body (rest : List Line) : List Line := rest.takeWhile inBody

/-- What follows the body of a loop whose header stands before the given lines. -/
def Line.afterBody (rest : List Line) : List Line := rest.dropWhile inBody

/-- The fault of a body that has a loop in it, found on the first line that opens one. -/
def Line.nested? (body : List Line) : Option Fault :=
  (body.find? opensLoop).map (.nestedLoop ·.number)

/-- A loop among the lines of a script. -/
structure Loop where
  header : LoopHeader
  body : List Line
  /-- The index of the first line after the body. -/
  resume : Nat
deriving DecidableEq, Repr

/-- The loop with the given header at index `i` of `lines`. -/
def Loop.scan (lines : List Line) (i : Nat) (header : LoopHeader) : Except Fault Loop :=
  let body := Line.body (lines.drop (i + 1))
  match Line.nested? body with
  | some fault => .error fault
  | none => .ok ⟨header, body, i + 1 + body.length⟩

/-- One piece of a script. -/
inductive Section where
  | line (line : Line)
  | loop (head : Line) (header : LoopHeader) (body : List Line)
deriving DecidableEq, Repr

namespace Section

/-- The lines of the section. -/
def lines : Section → List Line
  | line l => [l]
  | loop head _ body => head :: body

@[simp] theorem lines_line (l : Line) : (line l).lines = [l] := rfl
@[simp] theorem lines_loop (head : Line) (h : LoopHeader) (body : List Line) :
    (loop head h body).lines = head :: body := rfl

/-- The header that the line is, if it is one. -/
def header? (l : Line) : Option LoopHeader :=
  match l.statement with
  | .ok (.header h) => some h
  | _ => none

end Section

theorem Line.length_afterBody_le (rest : List Line) : (afterBody rest).length ≤ rest.length :=
  (List.dropWhile_sublist _).length_le

/-- The sections of a list of lines. -/
def sections : List Line → List Section
  | [] => []
  | l :: rest =>
    match Section.header? l with
    | none => .line l :: sections rest
    | some header => .loop l header (Line.body rest) :: sections (Line.afterBody rest)
termination_by lines => lines.length
decreasing_by
  · exact Nat.lt_succ_self _
  · exact Nat.lt_succ_of_le (Line.length_afterBody_le rest)

@[simp] theorem sections_nil : sections [] = [] := by simp [sections]

theorem sections_cons (l : Line) (rest : List Line) :
    sections (l :: rest) = match Section.header? l with
      | none => .line l :: sections rest
      | some header => .loop l header (Line.body rest) :: sections (Line.afterBody rest) := by
  rw [sections]

/-- No line is lost, doubled or moved. -/
theorem flatMap_lines_sections (lines : List Line) :
    (sections lines).flatMap Section.lines = lines := by
  fun_induction sections lines with
  | case1 => rfl
  | case2 l rest h ih => simp [ih]
  | case3 l rest header h ih =>
    rw [List.flatMap_cons, ih, Section.lines_loop, List.cons_append, Line.body, Line.afterBody,
      List.takeWhile_append_dropWhile]

end TurtleGraphics
