/-!
# JSON values

The values that a level catalog is read as and a run is written as. A whole number keeps its value
exactly if it fits in 64 bits, with or without a sign; any other number is a float.
-/

namespace TurtleGraphics

namespace Json

/-- A JSON number. -/
inductive Number where
  | whole (n : Int)
  | decimal (x : Float)
deriving Repr

/-- The float nearest to the number. -/
def Number.toFloat : Number → Float
  | whole (.ofNat n) => .ofNat n
  | whole (.negSucc n) => -.ofNat (n + 1)
  | decimal x => x

end Json

/-- A JSON value. -/
inductive Json where
  | null
  | bool (b : Bool)
  | number (n : Json.Number)
  | string (s : String)
  | array (items : List Json)
  | object (members : List (String × Json))
deriving Repr

namespace Json

/-- The members with one more, which replaces a member with the same key. The order is that of the
keys, character by character. -/
def insertMember (key : String) (value : Json) : List (String × Json) → List (String × Json)
  | [] => [(key, value)]
  | (k, v) :: rest =>
    if key = k then (key, value) :: rest
    else if key < k then (key, value) :: (k, v) :: rest
    else (k, v) :: insertMember key value rest

/-- The object with the given members, ordered by their keys. Of two members with one key the later
counts. -/
def ofMembers (members : List (String × Json)) : Json :=
  .object (members.foldl (fun ms m ↦ insertMember m.1 m.2 ms) [])

/-- The member of an object with the given key. -/
def get? (key : String) : Json → Option Json
  | object members => members.lookup key
  | _ => none

end Json

end TurtleGraphics
