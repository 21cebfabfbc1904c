import TurtleGraphics.Decimal.Layout
import TurtleGraphics.Json

/-!
# Writing JSON

Values are spread over lines, two spaces for every level of nesting, and an empty array or object
stays on one line. A number that is not finite has no form in JSON and is written as `null`.
-/

namespace TurtleGraphics.Json

/-- The last two hexadecimal digits of a code point below 256. -/
def hexPair (n : Nat) : List Char := [Nat.digitChar (n / 16), Nat.digitChar (n % 16)]

/-- How a character is written in a string. -/
def escapeChar (c : Char) : List Char :=
  if c = '"' then ['\\', '"']
  else if c = '\\' then ['\\', '\\']
  else if c = '\n' then ['\\', 'n']
  else if c = '\r' then ['\\', 'r']
  else if c = '\t' then ['\\', 't']
  else if c.toNat = 0x8 then ['\\', 'b']
  else if c.toNat = 0xC then ['\\', 'f']
  else if c.toNat < 0x20 then ['\\', 'u', '0', '0'] ++ hexPair c.toNat
  else [c]

/-- A string with its quotes. -/
def quote (s : String) : String :=
  String.ofList ('"' :: s.toList.flatMap escapeChar ++ ['"'])

/-- A number that is finite, and `null` for any other. -/
def Number.text : Number → String
  | whole n => toString n
  | decimal x => if x.isFinite then Decimal.Layout.data.text x else "null"

/-- The beginning of a line at the given depth of nesting. -/
def indent (depth : Nat) : String := String.ofList ('\n' :: List.replicate (2 * depth) ' ')

/-- A bracketed list of written values, each on a line of its own. -/
def bracket (opening closing : String) (depth : Nat) : List String → String
  | [] => opening ++ closing
  | items =>
    opening ++ indent (depth + 1) ++ String.intercalate ("," ++ indent (depth + 1)) items ++
      indent depth ++ closing

mutual

/-- The value as text, to stand at the given depth of nesting. -/
def textAt (depth : Nat) : Json → String
  | null => "null"
  | bool b => if b then "true" else "false"
  | number n => n.text
  | string s => quote s
  | array items => bracket "[" "]" depth (itemsAt (depth + 1) items)
  | object members => bracket "\x7b" "\x7d" depth (membersAt (depth + 1) members)

/-- The values of an array, each as text. -/
def itemsAt (depth : Nat) : List Json → List String
  | [] => []
  | v :: vs => textAt depth v :: itemsAt depth vs

/-- The members of an object, each as text. -/
def membersAt (depth : Nat) : List (String × Json) → List String
  | [] => []
  | (key, v) :: ms => (quote key ++ ": " ++ textAt depth v) :: membersAt depth ms

end

/-- The value as text. -/
def text (v : Json) : String := v.textAt 0

example : (array []).text = "[]" := by decide +kernel
example : (array [null, .string "a\x00"]).text = "[\n  null,\n  \"a\\u0000\"\n]" := by
  decide +kernel

end TurtleGraphics.Json
