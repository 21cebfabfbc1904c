import TurtleGraphics.Cursor
import TurtleGraphics.Script.Section

/-!
# Running a script

A run starts at a fresh cursor and records the cursor after every command. It goes on until the
script ends, a fault is met, or as many commands have been obeyed as the options allow. Reaching
that ceiling is no fault, and nothing that comes after it is looked at.

The body of a loop is read once. A line of it that is at fault stays in its place and is met when
the first repetition gets there; a body without commands and faults is not repeated at all.
-/

namespace TurtleGraphics

/-- What a run may be told. -/
structure Options where
  /-- How many commands are obeyed at most. -/
  maxSteps : Nat := 1000
  /-- The colour that the run starts with. -/
  color : String := defaultColor
deriving DecidableEq, Repr

/-- A recorded cursor. The fresh one has the id 0. -/
structure Step where
  id : Nat
  cursor : Cursor
deriving Repr

/-- What has been recorded so far. -/
structure Trail where
  steps : Array Step
  cursor : Cursor
  pathLength : Float
  totalTurns : Float
deriving Repr

namespace Trail

/-- The trail of a run that has not obeyed a command yet. -/
def start (color : String) : Trail :=
  { steps := #[⟨0, .fresh color⟩], cursor := .fresh color, pathLength := 0, totalTurns := 0 }

/-- The sum for the given metric after `effect`. -/
def measure (metric : Metric) (effect : Effect) (sum : Float) : Float :=
  if effect.metric = some metric then sum + effect.magnitude else sum

/-- The trail with one more command. -/
def record (t : Trail) (c : Command) : Trail :=
  let effect := c.effect t.cursor
  let cursor := t.cursor.apply effect
  { steps := t.steps.push ⟨t.steps.size, cursor⟩
    cursor
    pathLength := measure .pathLength effect t.pathLength
    totalTurns := measure .totalTurns effect t.totalTurns }

end Trail

/-- Why a run ends before its script does. -/
inductive Halt where
  /-- As many commands have been obeyed as may be. -/
  | ceiling
  | fault (fault : Fault)
deriving DecidableEq, Repr

/-- A run on its way, or one that has ended with what it recorded. -/
abbrev Progress := Except (Trail × Halt) Trail

/-- Obeys a command, unless the ceiling is passed. -/
def Trail.obey (maxSteps : Nat) (t : Trail) (c : Command) : Progress :=
  if maxSteps < t.steps.size then .error (t, .ceiling)
  else
    let next := t.record c
    if maxSteps < next.steps.size then .error (next, .ceiling) else .ok next

/-- What a line makes happen. -/
inductive Event where
  | command (command : Command)
  | fault (fault : Fault)
deriving Repr

/-- What the line makes happen by itself, if anything. -/
def Line.event? (l : Line) : Option Event :=
  match l.statement with
  | .ok (.command c) => some (.command c)
  | .error fault => some (.fault fault)
  | .ok _ => none

namespace Trail

/-- Goes on with one event. -/
def follow (maxSteps : Nat) (t : Trail) : Event → Progress
  | .command c => t.obey maxSteps c
  | .fault fault => .error (t, .fault fault)

/-- Goes on with the events in order. -/
def followAll (maxSteps : Nat) (events : List Event) (t : Trail) : Progress :=
  events.foldlM (follow maxSteps) t

/-- Goes on with the events in order, `count` times over. -/
def repeatAll (maxSteps : Nat) (events : List Event) : Nat → Trail → Progress
  | 0, t => .ok t
  | count + 1, t => do repeatAll maxSteps events count (← t.followAll maxSteps events)

/-- Goes on with one section of a script. A loop in the body of a loop is met before the body is
followed for the first time. -/
def perform (maxSteps : Nat) (t : Trail) : Section → Progress
  | .line l => t.followAll maxSteps l.event?.toList
  | .loop _ header body =>
    match Line.nested? body with
    | some fault => .error (t, .fault fault)
    | none =>
      match body.filterMap Line.event? with
      | [] => .ok t
      | events => t.repeatAll maxSteps events header.count

/-- Goes on with the sections in order. -/
def performAll (maxSteps : Nat) (ss : List Section) (t : Trail) : Progress :=
  ss.foldlM (perform maxSteps) t

end Trail

/-- What a run leaves behind. With a fault, the steps and the sums are those up to it. -/
structure Run where
  steps : List Step
  fault : Option Fault
  pathLength : Float
  totalTurns : Float
deriving Repr

namespace Run

/-- The run that has recorded `t` and ended, if not with its script, for the given reason. -/
def ofTrail (t : Trail) (fault : Option Fault) : Run :=
  { steps := t.steps.toList, fault, pathLength := t.pathLength, totalTurns := t.totalTurns }

/-- What is left behind when no section is left. -/
def ofProgress : Progress → Run
  | .ok t => ofTrail t none
  | .error (t, .ceiling) => ofTrail t none
  | .error (t, .fault fault) => ofTrail t (some fault)

/-- The run of a list of lines. -/
def ofLines (options : Options) (lines : List Line) : Run :=
  .ofProgress (Trail.performAll options.maxSteps (sections lines) (.start options.color))

/-- The run of a script. -/
def ofScript (script : String) (options : Options := {}) : Run :=
  ofLines options (Line.ofScript script)

/-- The cursor at the end, if any was recorded. -/
def final? (r : Run) : Option Cursor := r.steps.getLast?.map Step.cursor

/-- Whether the run met no fault. -/
def isOk (r : Run) : Bool := r.fault.isNone

end Run

end TurtleGraphics
