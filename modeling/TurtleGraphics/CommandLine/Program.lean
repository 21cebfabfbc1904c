import TurtleGraphics.Catalog.BuiltIn
import TurtleGraphics.CommandLine.Action
import TurtleGraphics.CommandLine.Job
import TurtleGraphics.Drawing
import TurtleGraphics.Run.Dump
import TurtleGraphics.Run.Summary

/-!
# What the commands do

The job of each command. `run` never fails because of the script: a fault of it is shown like the
rest of the run. `check` fails unless the level is solved.
-/

namespace TurtleGraphics.CommandLine

/-- The catalog in a file, or the built-in one. -/
def loadCatalog : Option String → Task Catalog
  | none => return .builtIn
  | some path => do
    let text ← Task.read path
    match Catalog.ofString text with
    | .ok c => return c
    | .error fault => throw ⟨s!"Parsing {path}", fault.message text :: fault.causes⟩

/-- The level with the given id. -/
def findLevel (c : Catalog) (id : Nat) : Task Level :=
  match c.level id with
  | .ok level => return level
  | .error fault => throw ⟨fault.message "", fault.causes⟩

/-- A level in the list of levels. -/
def levelLine (level : Level) : String :=
  Text.padLeft 3 (toString level.id) ++ "  " ++ Text.padRight 24 level.title ++ " " ++
    level.targetShape ++ "\n"

/-- Runs a script and shows the run. -/
def runScript (script : String) (json : Bool) (jsonOut svg : Option String) (options : Options) :
    Task Unit := do
  let r := Run.ofScript (← Task.read script) options
  Task.writeTo svg (Drawing.render r.steps)
  Task.writeTo jsonOut (r.dump ++ "\n")
  Task.print (if json then r.dump ++ "\n" else r.summary)

/-- Shows a run and says whether it solves the level. -/
def announce (level : Level) (r : Run) : Task Unit := do
  Task.print r.summary
  match level.evaluate r with
  | .solved => Task.print s!"Level {level.id} ({level.title}) solved!\n"
  | .unsolved =>
    if let some hint := level.hints.head? then Task.print s!"Hint: {hint}\n"
    throw { message := s!"the drawing doesn't match the {level.targetShape} yet" }
  | .errored reason => throw { message := s!"script failed: {reason}" }

/-- Runs a script and checks the run against a level. -/
def checkScript (id : Nat) (script : String) (catalog : Option String) (options : Options) :
    Task Unit := do
  let level ← findLevel (← loadCatalog catalog) id
  announce level (Run.ofScript (← Task.read script) options)

/-- Draws the solution of a level. -/
def drawPreview (id : Nat) (svg : String) (catalog : Option String) : Task Unit := do
  let level ← findLevel (← loadCatalog catalog) id
  Task.write svg (Drawing.render level.preview)

/-- Lists the levels. -/
def listLevels (catalog : Option String) : Task Unit := do
  Task.print (String.join ((← loadCatalog catalog).map levelLine))

/-- What is done for an action. -/
def Action.task : Action → Task Unit
  | run script json jsonOut svg options => runScript script json jsonOut svg options
  | check level script catalog options => checkScript level script catalog options
  | preview level svg catalog => drawPreview level svg catalog
  | levels catalog => listLevels catalog

/-- How the program ends: its exit status and what it reports as an error. -/
structure Ending where
  status : Nat
  report : String
deriving DecidableEq, Repr

/-- What is printed when the version is asked for. -/
def versionText : String := "turtle-dojo 0.1.0\n"

/-- How the program is used. -/
def usageText : String :=
  "Usage:\n" ++
    "  turtle-dojo run SCRIPT [--json] [--json-out FILE] [--svg FILE] [LIMITS]\n" ++
    "  turtle-dojo check LEVEL SCRIPT [--levels FILE] [LIMITS]\n" ++
    "  turtle-dojo preview LEVEL --svg FILE [--levels FILE]\n" ++
    "  turtle-dojo levels [--levels FILE]\n" ++
    "where LIMITS is [--max-steps N] [--color COLOR]\n"

/-- What the program does when its command line asks for no action. -/
def Usage.job : Usage → Job Ending
  | version => .print versionText (.done ⟨version.exitStatus, ""⟩)
  | help => .print usageText (.done ⟨help.exitStatus, ""⟩)
  | usage => .done ⟨usage.exitStatus, usageText⟩

/-- What the program does. -/
def program (args : List String) : Job Ending :=
  match Action.ofArgs args with
  | .error usage => usage.job
  | .ok action => do
    match ← action.task.run with
    | .ok () => return ⟨0, ""⟩
    | .error failure => return ⟨1, failure.report⟩

end TurtleGraphics.CommandLine
