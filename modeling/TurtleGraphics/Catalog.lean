import TurtleGraphics.Json.Reading
import TurtleGraphics.Level.Entry

/-!
# Level catalogs

A catalog is a JSON object whose member `levels` is an array of levels, each with an id of its own.
It is taken as a whole or not at all: the first entry that is no level, or has the id of an earlier
one, makes it a fault.
-/

namespace TurtleGraphics

/-- The levels of the game in order. -/
abbrev Catalog : Type := List Level

namespace Catalog

/-- Why there is no catalog, or no level in it. -/
inductive Fault where
  | json (fault : Json.Fault)
  | noLevels
  | malformed (index : Nat) (misfit : Level.Misfit)
  | duplicate (id : Nat)
  | unknownLevel (id : Nat)
deriving Repr

/-- The wording of the fault of a catalog read from `text`. -/
def Fault.message (text : String) : Fault → String
  | json fault => fault.message text.toList
  | noLevels => "file has no `levels` array"
  | malformed index _ => s!"level entry {index} is malformed"
  | duplicate id => s!"duplicate level id {id}"
  | unknownLevel id => s!"no level with id {id}"

/-- The wording of what lies behind the fault, if it is not the whole matter. -/
def Fault.causes : Fault → List String
  | malformed _ misfit => [misfit.message]
  | _ => []

/-- The levels of the entries from `index` on, after the levels in `before`. -/
def ofEntries (before : List Level) (index : Nat) : List Json → Except Fault Catalog
  | [] => .ok before
  | entry :: entries =>
    match Level.ofJson entry with
    | .error misfit => .error (.malformed index misfit)
    | .ok level =>
      if before.any (·.id = level.id) then .error (.duplicate level.id)
      else ofEntries (before ++ [level]) (index + 1) entries

/-- The catalog that a value holds. -/
def ofJson (root : Json) : Except Fault Catalog :=
  match root.get? "levels" with
  | some (.array entries) => ofEntries [] 0 entries
  | _ => .error .noLevels

/-- The catalog in a text. -/
def ofString (text : String) : Except Fault Catalog :=
  match Json.ofString text with
  | .error fault => .error (.json fault)
  | .ok root => ofJson root

/-- The level with the given id. -/
def level (c : Catalog) (id : Nat) : Except Fault Level :=
  match c.find? (·.id = id) with
  | some level => .ok level
  | none => .error (.unknownLevel id)

end Catalog

end TurtleGraphics
