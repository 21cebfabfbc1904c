import TurtleGraphics.Decimal.Layout
import TurtleGraphics.Json
import TurtleGraphics.Level
import TurtleGraphics.Text.Quoted

/-!
# Levels as JSON

An entry of a catalog is an object with the fields of a level, or an array of them in a fixed order;
the goal in it likewise. Fields are taken one by one, and the first that does not fit is reported.
Then the required fields are looked for. No other fields are allowed, in an array no more of them.
-/

namespace TurtleGraphics

namespace Level

/-- What a field asks for. -/
inductive Shape where
  | id
  | text
  | list
  | number
  | level
  | goal
deriving DecidableEq, Repr

/-- The wording of what is asked for. -/
def Shape.describe : Shape → String
  | id => "u32"
  | text => "a string"
  | list => "a sequence"
  | number => "f64"
  | level => "struct Level"
  | goal => "struct Goal"

/-- Why a JSON value is no level. -/
inductive Misfit where
  | unknownField (name : String) (known : List String)
  | missingField (name : String)
  | wrongKind (found : Json) (asked : Shape)
  /-- A whole number that is no id. -/
  | outOfRange (n : Int)
  /-- An array that ends before the required element at `index`. -/
  | tooShort (index : Nat)
  | tooLong (length : Nat)
deriving Repr

/-- A value as messages name it. -/
def describe : Json → String
  | .null => "null"
  | .bool b => s!"boolean `{b}`"
  | .number (.whole n) => s!"integer `{n}`"
  | .number (.decimal x) => s!"floating point `{Decimal.Layout.data.text x}`"
  | .string s => "string " ++ Text.quoted s
  | .array _ => "sequence"
  | .object _ => "map"

/-- Names in a row, each between backquotes. -/
def listNames (names : List String) : String :=
  String.intercalate ", " (names.map fun name ↦ s!"`{name}`")

/-- The wording of the misfit. -/
def Misfit.message : Misfit → String
  | unknownField name known => s!"unknown field `{name}`, expected one of {listNames known}"
  | missingField name => s!"missing field `{name}`"
  | wrongKind found asked => s!"invalid type: {describe found}, expected {asked.describe}"
  | outOfRange n => s!"invalid value: integer `{n}`, expected {Shape.id.describe}"
  | tooShort index =>
    s!"invalid length {index}, expected {Shape.level.describe} with 8 elements"
  | tooLong length => s!"invalid length {length}, expected fewer elements in array"

/-! ## Values of fields -/

/-- Ids are below this. -/
def idBound : Nat := UInt32.size

/-- The id that a value is. -/
def idOf : Json → Except Misfit Nat
  | .number (.whole n) =>
    if 0 ≤ n ∧ n < idBound then .ok n.toNat else .error (.outOfRange n)
  | v => .error (.wrongKind v .id)

/-- The text that a value is. -/
def textOf : Json → Except Misfit String
  | .string s => .ok s
  | v => .error (.wrongKind v .text)

/-- The float that a value is. -/
def numberOf : Json → Except Misfit Float
  | .number n => .ok n.toFloat
  | v => .error (.wrongKind v .number)

/-- The float that a value is; `null` is none. -/
def numberOf? : Json → Except Misfit (Option Float)
  | .null => .ok none
  | v => some <$> numberOf v

/-- The list of texts that a value is. -/
def textsOf : Json → Except Misfit (List String)
  | .array items => items.mapM textOf
  | v => .error (.wrongKind v .list)

end Level

/-! ## Goals -/

namespace Goal

/-- The fields of a goal, in order. -/
def fields : List String := ["minPathLength", "exactTurns", "minTurns", "homeTolerance"]

/-- The goal with one field set. -/
def set (g : Goal) (name : String) (v : Json) : Except Level.Misfit Goal :=
  match name with
  | "minPathLength" => do return { g with minPathLength := ← Level.numberOf v }
  | "exactTurns" => do return { g with exactTurns := ← Level.numberOf? v }
  | "minTurns" => do return { g with minTurns := ← Level.numberOf? v }
  | "homeTolerance" => do return { g with homeTolerance := ← Level.numberOf? v }
  | _ => .error (.unknownField name fields)

/-- The goal that a value is. -/
def ofJson : Json → Except Level.Misfit Goal
  | .object members => members.foldlM (fun g m ↦ g.set m.1 m.2) {}
  | .array items => do
    let g ← (fields.zip items).foldlM (fun g m ↦ g.set m.1 m.2) {}
    if fields.length < items.length then .error (.tooLong items.length) else return g
  | v => .error (.wrongKind v .goal)

end Goal

/-! ## Levels -/

namespace Level

/-- The fields of a level, in order. -/
def fields : List String :=
  ["id", "title", "description", "targetShape", "initialScript", "solutionScript", "hints", "goal"]

/-- A level of which some fields are known. -/
structure Draft where
  id : Option Nat := none
  title : Option String := none
  description : Option String := none
  targetShape : Option String := none
  initialScript : Option String := none
  solutionScript : Option String := none
  hints : Option (List String) := none
  goal : Option Goal := none
deriving Repr

namespace Draft

/-- The draft with one field set. -/
def set (d : Draft) (name : String) (v : Json) : Except Misfit Draft :=
  match name with
  | "id" => do return { d with id := some (← idOf v) }
  | "title" => do return { d with title := some (← textOf v) }
  | "description" => do return { d with description := some (← textOf v) }
  | "targetShape" => do return { d with targetShape := some (← textOf v) }
  | "initialScript" => do return { d with initialScript := some (← textOf v) }
  | "solutionScript" => do return { d with solutionScript := some (← textOf v) }
  | "hints" => do return { d with hints := some (← textsOf v) }
  | "goal" => do return { d with goal := some (← Goal.ofJson v) }
  | _ => .error (.unknownField name fields)

/-- The field, which has to be known; `missing` is reported if it is not. -/
def require {α : Type} (missing : Misfit) : Option α → Except Misfit α
  | some a => .ok a
  | none => .error missing

/-- The level that the draft has become. The misfit that reports a missing field is made of its
index and its name. -/
def finish (d : Draft) (missing : Nat → String → Misfit) : Except Misfit Level := do
  let id ← require (missing 0 "id") d.id
  let title ← require (missing 1 "title") d.title
  let description ← require (missing 2 "description") d.description
  let targetShape ← require (missing 3 "targetShape") d.targetShape
  let initialScript ← require (missing 4 "initialScript") d.initialScript
  let solutionScript ← require (missing 5 "solutionScript") d.solutionScript
  let goal ← require (missing 7 "goal") d.goal
  return { id, title, description, targetShape, initialScript, solutionScript,
           hints := d.hints.getD [], goal }

end Draft

/-- The level that a value is. -/
def ofJson : Json → Except Misfit Level
  | .object members => do
    let d ← members.foldlM (fun d m ↦ d.set m.1 m.2) ({} : Draft)
    d.finish fun _ name ↦ .missingField name
  | .array items => do
    let d ← (fields.zip items).foldlM (fun d m ↦ d.set m.1 m.2) ({} : Draft)
    let level ← d.finish fun index _ ↦ .tooShort index
    if fields.length < items.length then .error (.tooLong items.length) else return level
  | v => .error (.wrongKind v .level)

end Level

end TurtleGraphics
