/-!
# Faults of JSON text

Why a text is no JSON value, and where that was noticed. A text can be unfinished, so that more of
it might have made it a value, or wrong, so that nothing could.
-/

namespace TurtleGraphics.Json

/-- Why a text is no JSON value. -/
inductive Cause where
  | unfinishedList
  | unfinishedObject
  | unfinishedString
  | unfinishedValue
  | expectedColon
  | expectedListEnd
  | expectedObjectEnd
  | expectedWord
  | expectedValue
  | invalidEscape
  | invalidNumber
  | numberOutOfRange
  | controlCharacter
  | keyNotString
  | loneSurrogate
  | unfinishedSurrogate
  | trailingComma
  | trailingCharacters
  | tooDeep
deriving DecidableEq, Repr

namespace Cause

/-- Whether the text ended where it had to go on. -/
def isUnfinished : Cause → Bool
  | unfinishedList | unfinishedObject | unfinishedString | unfinishedValue => true
  | _ => false

/-- The wording of the cause. -/
def message : Cause → String
  | unfinishedList => "EOF while parsing a list"
  | unfinishedObject => "EOF while parsing an object"
  | unfinishedString => "EOF while parsing a string"
  | unfinishedValue => "EOF while parsing a value"
  | expectedColon => "expected `:`"
  | expectedListEnd => "expected `,` or `]`"
  | expectedObjectEnd => "expected `,` or `\x7d`"
  | expectedWord => "expected ident"
  | expectedValue => "expected value"
  | invalidEscape => "invalid escape"
  | invalidNumber => "invalid number"
  | numberOutOfRange => "number out of range"
  | controlCharacter => "control character (\\u0000-\\u001F) found while parsing a string"
  | keyNotString => "key must be a string"
  | loneSurrogate => "lone leading surrogate in hex escape"
  | unfinishedSurrogate => "unexpected end of hex escape"
  | trailingComma => "trailing comma"
  | trailingCharacters => "trailing characters"
  | tooDeep => "recursion limit exceeded"

end Cause

/-- How many bytes the characters take in UTF-8. -/
def byteLength : List Char → Nat
  | [] => 0
  | c :: cs => c.utf8Size + byteLength cs

/-- A fault and how many bytes of the text were left when it was noticed. -/
structure Fault where
  cause : Cause
  left : Nat
deriving DecidableEq, Repr

namespace Fault

/-- A fault that the next character shows, or the end of the text. The character counts as seen,
but for what it takes beyond its first byte. -/
def atNext (cause : Cause) (cs : List Char) : Fault := ⟨cause, byteLength cs - 1⟩

/-- A fault that is noticed when exactly `cs` is left. -/
def before (cause : Cause) (cs : List Char) : Fault := ⟨cause, byteLength cs⟩

/-- The line and column `n` bytes on, counted from the given line and column. Columns are counted in
bytes since the last newline. -/
def place : Nat → List Char → Nat → Nat → Nat × Nat
  | _, [], line, column => (line, column)
  | n, c :: cs, line, column =>
    if n = 0 then (line, column)
    else if n < c.utf8Size then (line, column + n)
    else if c = '\n' then place (n - c.utf8Size) cs (line + 1) 0
    else place (n - c.utf8Size) cs line (column + c.utf8Size)

/-- The fault of a text in one sentence. -/
def message (text : List Char) (f : Fault) : String :=
  let (line, column) := place (byteLength text - f.left) text 1 0
  s!"{f.cause.message} at line {line} column {column}"

end Fault

end TurtleGraphics.Json
