import TurtleGraphics.Text.Column

/-!
# Jobs

What the program does to the world around it, as data: reading and writing files and printing. A job
says what is done next and goes on with what came of it, so that it can be carried out on real files
as well as followed on paper.
-/

namespace TurtleGraphics.CommandLine

/-- Why a file could not be read or written. -/
inductive FileFault where
  /-- The operating system refused. -/
  | refused (code : Nat) (reason : String)
  /-- The file holds bytes that are no text. -/
  | notText
deriving DecidableEq, Repr

namespace FileFault

/-- There is nothing where the path leads. -/
def notFound : FileFault := refused 2 "No such file or directory"

/-- There is a directory where a file should be. -/
def isDirectory : FileFault := refused 21 "Is a directory"

/-- There is a file where a directory should be. -/
def notDirectory : FileFault := refused 20 "Not a directory"

/-- A name on the path is longer than a name may be, or the path as a whole. -/
def nameTooLong : FileFault := refused 36 "File name too long"

/-- The wording of the fault. -/
def message : FileFault → String
  | refused code reason => s!"{reason} (os error {code})"
  | notText => "stream did not contain valid UTF-8"

end FileFault

/-- A job that ends with a value. -/
inductive Job (α : Type) where
  | done (value : α)
  | read (path : String) (next : Except FileFault String → Job α)
  | write (path text : String) (next : Except FileFault Unit → Job α)
  | print (text : String) (next : Job α)

namespace Job

variable {α β : Type}

/-- Goes on with another job when the first is done. -/
def bind : Job α → (α → Job β) → Job β
  | done a, f => f a
  | read path next, f => read path fun r ↦ (next r).bind f
  | write path text next, f => write path text fun r ↦ (next r).bind f
  | print text next, f => print text (next.bind f)

instance : Monad Job where
  pure := done
  bind := bind

end Job

/-- Why the program fails: what it was doing, and the causes, each after what it is the cause of. -/
structure Failure where
  message : String
  causes : List String := []
deriving DecidableEq, Repr

namespace Failure

/-- The causes as they are listed: a single one by itself, several with their numbers from 0 on.
The lines of a cause stand below each other. -/
def causeLines : List String → List String
  | [] => []
  | [cause] => ["    " ++ Text.hangIndent 4 cause]
  | causes => causes.mapIdx fun i cause ↦
      Text.padLeft 5 (toString i) ++ ": " ++ Text.hangIndent 7 cause

example : causeLines ["a\nb", "c"] = ["    0: a\n       b", "    1: c"] := by decide +kernel

/-- The failure as it is reported. -/
def report (f : Failure) : String :=
  s!"Error: {f.message}\n" ++
    match causeLines f.causes with
    | [] => ""
    | lines => "\nCaused by:\n" ++ String.join (lines.map (· ++ "\n"))

end Failure

/-- A job that may fail. -/
abbrev Task : Type → Type := ExceptT Failure Job

namespace Task

/-- Reads a file. -/
def read (path : String) : Task String :=
  .mk <| .read path fun
    | .ok text => .done (.ok text)
    | .error fault => .done (.error ⟨s!"Reading {path}", [fault.message]⟩)

/-- Writes a file. -/
def write (path text : String) : Task Unit :=
  .mk <| .write path text fun
    | .ok () => .done (.ok ())
    | .error fault => .done (.error ⟨s!"Writing {path}", [fault.message]⟩)

/-- Writes a text to a file, if one is asked for. -/
def writeTo : Option String → String → Task Unit
  | none, _ => pure ()
  | some path, text => write path text

/-- Prints a text. -/
def print (text : String) : Task Unit := .mk <| .print text (.done (.ok ()))

end Task

end TurtleGraphics.CommandLine
