import TurtleGraphics.CommandLine.Program

/-!
# The program

Carries the job of the command line out on the files of the system.
-/

namespace TurtleGraphics.CommandLine

/-- The fault behind an error of the system. -/
def FileFault.ofError : IO.Error → FileFault
  | .noFileOrDirectory _ code details => refused code.toNat details
  | .inappropriateType _ code details => refused code.toNat details
  | .permissionDenied _ code details => refused code.toNat details
  | .invalidArgument _ code details => refused code.toNat details
  | .resourceExhausted _ code details => refused code.toNat details
  | e => refused 0 (toString e)

/-- The text of a file. -/
def readText (path : String) : IO (Except FileFault String) := do
  try
    let file ← IO.FS.Handle.mk path .read
    match String.fromUTF8? (← file.readBinToEnd) with
    | some text => return .ok text
    | none => return .error .notText
  catch e => return .error (.ofError e)

/-- Puts a text into a file. -/
def writeText (path text : String) : IO (Except FileFault Unit) := do
  try
    IO.FS.writeFile path text
    return .ok ()
  catch e => return .error (.ofError e)

/-- Carries a job out. -/
def Job.perform {α : Type} : Job α → IO α
  | done value => return value
  | read path next => do (next (← readText path)).perform
  | write path text next => do (next (← writeText path text)).perform
  | print text next => do
    IO.print text
    next.perform

end TurtleGraphics.CommandLine

/-- Runs the program and ends with its exit status. -/
def main (args : List String) : IO UInt32 := do
  let ending ← (TurtleGraphics.CommandLine.program args).perform
  IO.eprint ending.report
  return ending.status.toUInt32
