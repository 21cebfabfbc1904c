import TurtleGraphics.CommandLine.Arguments
import TurtleGraphics.Run

/-!
# What the program can be asked to do

There are four commands: `run` a script, `check` it against a level, draw a `preview` of a level's
solution, and list the `levels`. The form of each says what it takes, and its action is made of the
values given.
-/

namespace TurtleGraphics.CommandLine

/-- What the program is asked to do. Files are given by their paths; without a catalog it is the
built-in one. -/
inductive Action where
  | run (script : String) (json : Bool) (jsonOut svg : Option String) (options : Options)
  | check (level : Nat) (script : String) (catalog : Option String) (options : Options)
  | preview (level : Nat) (svg : String) (catalog : Option String)
  | levels (catalog : Option String)
deriving DecidableEq, Repr

/-- The commands. -/
inductive Command where
  | run
  | check
  | preview
  | levels
deriving DecidableEq, Repr

namespace Command

/-- The command with the given name. -/
def ofName? : String → Option Command
  | "run" => some run
  | "check" => some check
  | "preview" => some preview
  | "levels" => some levels
  | _ => none

/-- The options of a run. -/
def runOptions : List Field := [⟨"max-steps", .stepLimit⟩, ⟨"color", .text⟩]

/-- What the command takes. -/
def form : Command → Form
  | run =>
    { positions := [⟨"script", .path⟩]
      options := [⟨"json-out", .path⟩, ⟨"svg", .path⟩] ++ runOptions
      flags := ["json"] }
  | check =>
    { positions := [⟨"level", .levelId⟩, ⟨"script", .path⟩]
      options := ⟨"levels", .path⟩ :: runOptions }
  | preview =>
    { positions := [⟨"level", .levelId⟩]
      options := [⟨"svg", .path⟩, ⟨"levels", .path⟩]
      required := ["svg"] }
  | levels => { options := [⟨"levels", .path⟩] }

end Command

namespace Values

/-- The options of a run that were given, and the defaults of the others. -/
def options (v : Values) : Options :=
  let default : Options := {}
  { maxSteps := ((v.get? "max-steps").bind stepLimit?).getD default.maxSteps
    color := (v.get? "color").getD default.color }

/-- The level that was given. -/
def level (v : Values) : Nat := ((v.get? "level").bind levelId?).getD 0

/-- The value of a field that the form requires. -/
def text (v : Values) (name : String) : String := (v.get? name).getD ""

end Values

/-- The action of a command with the given values. -/
def Command.action (v : Values) : Command → Action
  | run => .run (v.text "script") (v.has "json") (v.get? "json-out") (v.get? "svg") v.options
  | check => .check v.level (v.text "script") (v.get? "levels") v.options
  | preview => .preview v.level (v.text "svg") (v.get? "levels")
  | levels => .levels (v.get? "levels")

/-- What `help` is to be shown about: a command, or everything. -/
def Usage.ofHelp : List String → Usage
  | [] => .help
  | [name] => if name = "help" ∨ (Command.ofName? name).isSome then .help else .unknownCommand
  | _ => .unknownCommand

/-- What is wrong with an argument that stands where a command should, after `--`. -/
def Usage.afterDashes : List String → Usage
  | [] => .nothing
  | name :: _ =>
    if name = "help" ∨ (Command.ofName? name).isSome then .unknownArgument else .unknownCommand

/-- What is wrong with a long argument that stands where a command should. -/
def Usage.ofLong (name : String) (value : Option String) : Usage :=
  if name = "help" then if value.isSome then .unwantedValue else .help
  else if name = "version" then if value.isSome then .unwantedValue else .version
  else .unknownArgument

/-- What a command line asks for. -/
def Action.ofArgs : List String → Except Usage Action
  | [] => .error .nothing
  | arg :: args =>
    match Command.ofName? arg with
    | some command => return command.action (← command.form.read args)
    | none =>
      if arg = "help" then .error (.ofHelp args)
      else match Shape.of arg with
        | .dashes => .error (.afterDashes args)
        | .long name value => .error (.ofLong name value)
        | .short 'h' => .error .help
        | .short 'V' => .error .version
        | .short _ => .error .unknownArgument
        | .plain => .error .unknownCommand

end TurtleGraphics.CommandLine
