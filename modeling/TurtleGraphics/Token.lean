import TurtleGraphics.Text.Quoted

/-!
# Tokens of a line

A line of a script is made of words, numerals, quoted texts and a few symbols. A token keeps the
spelling that messages and commands need; what kind of word it is, is decided later.
-/

namespace TurtleGraphics

/-- One token of a line. -/
inductive Token where
  /-- A name: a letter or underscore, then letters, digits and underscores. -/
  | word (name : String)
  /-- A numeral: digits, and digits after a point if there is one. -/
  | number (whole : String) (fraction : Option String)
  /-- What stands between two equal quotes. -/
  | text (content : String)
  | leftParen
  | rightParen
  | dot
  | colon
  | comma
  | minus
  | plus
deriving DecidableEq, Repr

namespace Token

/-- The spelling of a numeral. -/
def numeral (whole : String) : Option String → String
  | none => whole
  | some fraction => whole ++ "." ++ fraction

/-- The token as messages name it. -/
def describe : Token → String
  | word name => "Ident(" ++ Text.quoted name ++ ")"
  | number whole fraction => "Number(" ++ Text.quoted (numeral whole fraction) ++ ")"
  | text content => "Text(" ++ Text.quoted content ++ ")"
  | leftParen => "LParen"
  | rightParen => "RParen"
  | dot => "Dot"
  | colon => "Colon"
  | comma => "Comma"
  | minus => "Minus"
  | plus => "Plus"

/-- Why the rest of a line is no token. -/
inductive Fault where
  /-- A quote that is not closed on its line. -/
  | unclosed (quote : Char)
  /-- A character that begins nothing. -/
  | unexpected (c : Char)
deriving DecidableEq, Repr

/-- The wording of the fault. -/
def Fault.message : Fault → String
  | unclosed quote => s!"no closing {quote} found"
  | unexpected c => s!"unexpected character {c}"

end Token

/-- The tokens of a line in order, up to its end or to the first thing that is no token. -/
inductive Tokens where
  | finished
  | broken (fault : Token.Fault)
  | cons (token : Token) (rest : Tokens)
deriving DecidableEq, Repr

namespace Tokens

/-- The tokens that could be read. -/
def toList : Tokens → List Token
  | finished | broken _ => []
  | cons t rest => t :: rest.toList

/-- What stopped the reading, if it was not the end of the line. -/
def fault? : Tokens → Option Token.Fault
  | finished => none
  | broken fault => some fault
  | cons _ rest => rest.fault?

/-- A line that holds exactly these tokens. -/
def ofList : List Token → Tokens
  | [] => finished
  | t :: ts => cons t (ofList ts)

@[simp] theorem toList_finished : finished.toList = [] := rfl
@[simp] theorem toList_broken (f : Token.Fault) : (broken f).toList = [] := rfl
@[simp] theorem toList_cons (t : Token) (ts : Tokens) : (cons t ts).toList = t :: ts.toList := rfl
@[simp] theorem fault?_finished : finished.fault? = none := rfl
@[simp] theorem fault?_broken (f : Token.Fault) : (broken f).fault? = some f := rfl
@[simp] theorem fault?_cons (t : Token) (ts : Tokens) : (cons t ts).fault? = ts.fault? := rfl
@[simp] theorem ofList_nil : ofList [] = finished := rfl
@[simp] theorem ofList_cons (t : Token) (ts : List Token) :
    ofList (t :: ts) = cons t (ofList ts) := rfl

@[simp] theorem toList_ofList (ts : List Token) : (ofList ts).toList = ts := by
  induction ts with
  | nil => rfl
  | cons t ts ih => simp [ih]

@[simp] theorem fault?_ofList (ts : List Token) : (ofList ts).fault? = none := by
  induction ts with
  | nil => rfl
  | cons t ts ih => simp [ih]

/-- A line without a fault is known by its tokens. -/
theorem eq_ofList {ts : Tokens} (h : ts.fault? = none) : ts = ofList ts.toList := by
  induction ts with
  | finished => rfl
  | broken f => simp at h
  | cons t ts ih => rw [toList_cons, ofList_cons, ← ih (by simpa using h)]

end Tokens

end TurtleGraphics
