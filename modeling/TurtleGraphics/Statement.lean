import TurtleGraphics.Command
import TurtleGraphics.Fault
import TurtleGraphics.Token.Reading

/-!
# What a line says

A line is blank, opens a loop, gives a command, or is something else that is passed over:

    blank    ::=
    header   ::= "for" word "in" "range" "(" digits ")" ":"
    command  ::= [word "."] keyword "(" argument ")"
    argument ::= distance | angle | text | nothing, as the keyword asks

The leading words decide which it is. After `for` or a known keyword the rest of the line has to
fit; a line that begins in any other way is never a fault.
-/

namespace TurtleGraphics

/-- What is wrong with the tokens after a keyword or after `for`. -/
inductive Complaint where
  /-- The line cannot be read as tokens up to its end. -/
  | unreadable (fault : Token.Fault)
  /-- Something is not there, or something else is in its place. -/
  | expected (what : String)
  /-- The line goes on after its end. -/
  | trailing (token : Token)
  | negativeCount
  | negativeDistance
  | missingNumber
  | wordForNumber (name : String)
  | textForNumber (content : String)
  | tokenForNumber (token : Token)
  | notWhole (numeral : String)
  | tooLarge (numeral : String)
deriving DecidableEq, Repr

/-- The wording of the complaint. -/
def Complaint.message : Complaint → String
  | unreadable fault => fault.message
  | expected what => s!"expected {what}"
  | trailing token => s!"unexpected {token.describe} at end of line"
  | negativeCount => "count can't be negative"
  | negativeDistance => "distance can't be negative"
  | missingNumber => "missing number"
  | wordForNumber name => s!"`{name}` is not a number"
  | textForNumber content => s!"'{content}' is not a number"
  | tokenForNumber token => s!"expected a number, found {token.describe}"
  | notWhole numeral => s!"`{numeral}` is not a whole number"
  | tooLarge numeral => s!"`{numeral}` is too large"

/-- The head of a loop: the name it counts with and how often its body is repeated. -/
structure LoopHeader where
  counter : String
  count : Nat
deriving DecidableEq, Repr

/-- What a line says. -/
inductive Statement where
  /-- Nothing, or a comment. -/
  | blank
  | header (header : LoopHeader)
  | command (command : Command)
  /-- Anything else. It is passed over. -/
  | other
deriving Repr

/-! ## Numbers -/

/-- The natural number that a string of decimal digits denotes. -/
def digitsValue (digits : List Char) : Nat :=
  digits.foldl (fun n c ↦ 10 * n + (c.toNat - '0'.toNat)) 0

/-- The greatest loop count; a greater one counts as this. -/
def greatestCount : Nat := UInt64.size - 1

/-- The number of repetitions that a numeral asks for. -/
def loopCount (whole : String) : Option String → Except Complaint Nat
  | some fraction => .error (.notWhole (Token.numeral whole (some fraction)))
  | none => .ok (min (digitsValue whole.toList) greatestCount)

/-- The distance or angle that a numeral denotes: a whole number, rounded to the nearest float. -/
def wholeNumber (whole : String) : Option String → Except Complaint Float
  | some fraction => .error (.notWhole (Token.numeral whole (some fraction)))
  | none =>
    let x := Float.ofNat (digitsValue whole.toList)
    if x.isFinite then .ok x else .error (.tooLarge whole)

/-! ## Pieces of a line

Each takes the tokens it needs from the front and returns what is left. -/

namespace Tokens

/-- Takes the given token. -/
def expect (want : Token) (what : String) : Tokens → Except Complaint Tokens
  | cons t rest => if t = want then .ok rest else .error (.expected what)
  | broken fault => .error (.unreadable fault)
  | finished => .error (.expected what)

/-- Takes nothing, and holds at the end of the line only. -/
def expectEnd : Tokens → Except Complaint Unit
  | finished => .ok ()
  | broken fault => .error (.unreadable fault)
  | cons t _ => .error (.trailing t)

/-- Takes a number. -/
def takeNumber : Tokens → Except Complaint (Float × Tokens)
  | cons (.number whole fraction) rest => do return (← wholeNumber whole fraction, rest)
  | cons (.word name) _ => .error (.wordForNumber name)
  | cons (.text content) _ => .error (.textForNumber content)
  | cons .rightParen _ | finished => .error .missingNumber
  | cons t _ => .error (.tokenForNumber t)
  | broken fault => .error (.unreadable fault)

/-- Takes a distance, which has no sign. -/
def takeDistance : Tokens → Except Complaint (Float × Tokens)
  | cons .minus _ => .error .negativeDistance
  | ts => ts.takeNumber

/-- Takes an angle, which may have a sign. -/
def takeAngle : Tokens → Except Complaint (Float × Tokens)
  | cons .minus rest => do
    let (angle, rest) ← rest.takeNumber
    return (-angle, rest)
  | cons .plus rest => rest.takeNumber
  | ts => ts.takeNumber

/-- Takes a quoted colour name. -/
def takeColor : Tokens → Except Complaint (String × Tokens)
  | cons (.text color) rest => .ok (color, rest)
  | broken fault => .error (.unreadable fault)
  | _ => .error (.expected "a quoted colour name")

/-- Takes the name that a loop counts with. -/
def takeCounter : Tokens → Except Complaint (String × Tokens)
  | cons (.word name) rest => .ok (name, rest)
  | broken fault => .error (.unreadable fault)
  | _ => .error (.expected "a loop variable after `for`")

/-- Takes the count of a loop. -/
def takeCount : Tokens → Except Complaint (Nat × Tokens)
  | cons (.number whole fraction) rest => do return (← loopCount whole fraction, rest)
  | cons .minus _ => .error .negativeCount
  | cons (.word name) _ => .error (.wordForNumber name)
  | broken fault => .error (.unreadable fault)
  | _ => .error (.expected "a count inside `range(...)`")

end Tokens

/-- The command that a keyword makes of its argument. -/
def Keyword.takeArgument : Keyword → Tokens → Except Complaint (Command × Tokens)
  | forward, ts => do let (x, rest) ← ts.takeDistance; return (.forward x, rest)
  | backward, ts => do let (x, rest) ← ts.takeDistance; return (.backward x, rest)
  | left, ts => do let (x, rest) ← ts.takeAngle; return (.left x, rest)
  | right, ts => do let (x, rest) ← ts.takeAngle; return (.right x, rest)
  | penColor, ts => do let (color, rest) ← ts.takeColor; return (.penColor color, rest)
  | penUp, ts => .ok (.penUp, ts)
  | penDown, ts => .ok (.penDown, ts)

/-- The command in the tokens after a keyword, which have to hold it and nothing else. -/
def Command.ofTokens (keyword : Keyword) (ts : Tokens) : Except Complaint Command := do
  let ts ← ts.expect .leftParen "`(`"
  let (command, ts) ← keyword.takeArgument ts
  let ts ← ts.expect .rightParen "`)`"
  ts.expectEnd
  return command

/-- The loop header in the tokens after `for`, which have to hold it and nothing else. -/
def LoopHeader.ofTokens (ts : Tokens) : Except Complaint LoopHeader := do
  let (counter, ts) ← ts.takeCounter
  let ts ← ts.expect (.word "in") "`in`"
  let ts ← ts.expect (.word "range") "`range`"
  let ts ← ts.expect .leftParen "`(` after `range`"
  let (count, ts) ← ts.takeCount
  let ts ← ts.expect .rightParen "`)` after the count"
  let ts ← ts.expect .colon "`:` at the end of the loop header"
  ts.expectEnd
  return { counter, count }

/-! ## The whole line -/

namespace Statement

/-- The statement that `word` opens, if it is a keyword. -/
def ofWord (line : Nat) (word : String) (rest : Tokens) : Except Fault Statement :=
  match Keyword.ofWord? word with
  | none => .ok other
  | some keyword =>
    match Command.ofTokens keyword rest with
    | .ok c => .ok (command c)
    | .error complaint => .error (.argument line word complaint.message)

/-- What the tokens of a line say. -/
def ofTokens (line : Nat) : Tokens → Except Fault Statement
  | .finished => .ok blank
  | .cons (.word word) rest =>
    if word = "for" then
      match LoopHeader.ofTokens rest with
      | .ok h => .ok (header h)
      | .error complaint => .error (.header line complaint.message)
    else match rest with
      | .cons .dot (.cons (.word word) rest) => ofWord line word rest
      | .cons .dot _ => .ok other
      | rest => ofWord line word rest
  | _ => .ok other

/-- What the text says as line number `line`. -/
def ofString (line : Nat) (text : String) : Except Fault Statement :=
  ofTokens line (.ofString text)

end Statement

/-- Whether the tokens begin with the word that opens a loop. -/
def Tokens.opensLoop : Tokens → Bool
  | cons (.word word) _ => word = "for"
  | _ => false

example : LoopHeader.ofTokens (.ofString "i in range(4):") = .ok ⟨"i", 4⟩ := by cbv
example : LoopHeader.ofTokens (.ofString "i in range(-1):") = .error .negativeCount := by cbv

end TurtleGraphics
