/-!
# Faults of a script

What ends a run before its script does. A fault names the line it was found on. It carries its
detail as text, so that a recorded run can be shown without the script it came from.
-/

namespace TurtleGraphics

/-- Why a script cannot be followed any further. Lines are counted from 1. -/
inductive Fault where
  /-- A known command whose argument cannot be used. -/
  | argument (line : Nat) (keyword detail : String)
  /-- A loop header that is not well formed. -/
  | header (line : Nat) (detail : String)
  /-- A loop inside the body of another loop. -/
  | nestedLoop (line : Nat)
deriving DecidableEq, Repr

namespace Fault

/-- The line the fault was found on. -/
def line : Fault → Nat
  | argument line _ _ | header line _ | nestedLoop line => line

/-- The fault in one sentence. -/
def message : Fault → String
  | argument line keyword detail => s!"line {line}: {keyword} doesn't like its input: {detail}"
  | header line detail => s!"line {line}: bad loop header: {detail}"
  | nestedLoop line => s!"line {line}: loops can't be nested inside another loop"

@[simp] theorem line_argument (n : Nat) (k d : String) : (argument n k d).line = n := rfl
@[simp] theorem line_header (n : Nat) (d : String) : (header n d).line = n := rfl
@[simp] theorem line_nestedLoop (n : Nat) : (nestedLoop n).line = n := rfl

end Fault

end TurtleGraphics
