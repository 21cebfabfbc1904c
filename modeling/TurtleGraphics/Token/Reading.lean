import TurtleGraphics.Token

/-!
# Reading a line as tokens

Blanks separate tokens and are passed over, and a `#` outside quotes ends the line. Each token is as
long as it can be. Every step consumes a character, so the reading ends.
-/

namespace TurtleGraphics.Token

/-- Whether `c` can begin a word. -/
def isWordStart (c : Char) : Bool := c.isAlpha || c = '_'

/-- Whether `c` can go on a word. -/
def isWordRest (c : Char) : Bool := c.isAlphanum || c = '_'

/-- The word that begins with `c`, and what follows it. -/
def readWord (c : Char) (cs : List Char) : Token × List Char :=
  (word (String.ofList (c :: cs.takeWhile isWordRest)), cs.dropWhile isWordRest)

/-- The numeral that begins with the digit `c`, and what follows it. A point belongs to the numeral
only if a digit comes next. -/
def readNumber (c : Char) (cs : List Char) : Token × List Char :=
  let whole := String.ofList (c :: cs.takeWhile Char.isDigit)
  match cs.dropWhile Char.isDigit with
  | '.' :: d :: rest =>
    if d.isDigit then
      (number whole (some (String.ofList (d :: rest.takeWhile Char.isDigit))),
        rest.dropWhile Char.isDigit)
    else (number whole none, '.' :: d :: rest)
  | rest => (number whole none, rest)

/-- The text up to the next `quote`, and what follows that. -/
def readText (quote : Char) (cs : List Char) : Except Fault (Token × List Char) :=
  match cs.dropWhile (· ≠ quote) with
  | [] => .error (.unclosed quote)
  | _ :: rest => .ok (text (String.ofList (cs.takeWhile (· ≠ quote))), rest)

/-- The symbol that `c` is, if it is one. -/
def symbol? (c : Char) : Option Token :=
  match c with
  | '(' => some leftParen
  | ')' => some rightParen
  | '.' => some dot
  | ':' => some colon
  | ',' => some comma
  | '-' => some minus
  | '+' => some plus
  | _ => none

/-- The token that begins with `c`, and what follows it. -/
def read (c : Char) (cs : List Char) : Except Fault (Token × List Char) :=
  match symbol? c with
  | some t => .ok (t, cs)
  | none =>
    if c = '\'' ∨ c = '"' then readText c cs
    else if c.isDigit then .ok (readNumber c cs)
    else if isWordStart c then .ok (readWord c cs)
    else .error (.unexpected c)

/-! ## Every token takes a character -/

theorem length_readWord_le (c : Char) (cs : List Char) :
    (readWord c cs).2.length ≤ cs.length :=
  (List.dropWhile_sublist _).length_le

theorem length_readNumber_le (c : Char) (cs : List Char) :
    (readNumber c cs).2.length ≤ cs.length := by
  have h := (List.dropWhile_sublist Char.isDigit (l := cs)).length_le
  unfold readNumber
  simp only
  split
  · rename_i d rest hd
    have hr := (List.dropWhile_sublist Char.isDigit (l := rest)).length_le
    rw [hd] at h
    simp only [List.length_cons] at h
    split
    · simp only; omega
    · simpa using h
  · exact h

theorem length_readText_le {quote : Char} {cs rest : List Char} {t : Token}
    (h : readText quote cs = .ok (t, rest)) : rest.length ≤ cs.length := by
  have hd := (List.dropWhile_sublist (fun c ↦ decide (c ≠ quote)) (l := cs)).length_le
  unfold readText at h
  split at h
  · simp at h
  · rename_i hc
    rw [hc] at hd
    simp only [Except.ok.injEq, Prod.mk.injEq] at h
    rw [← h.2]
    simp only [List.length_cons] at hd
    omega

theorem length_read_le {c : Char} {cs rest : List Char} {t : Token}
    (h : read c cs = .ok (t, rest)) : rest.length ≤ cs.length := by
  unfold read at h
  split at h
  · simp_all
  · split at h
    · exact length_readText_le h
    · split at h
      · have hn := length_readNumber_le c cs
        simp only [Except.ok.injEq] at h
        rwa [h] at hn
      · split at h
        · have hw := length_readWord_le c cs
          simp only [Except.ok.injEq] at h
          rwa [h] at hw
        · simp at h

/-- A token read after blanks leaves less than there was. -/
theorem length_lt_of_read {cs rest after : List Char} {c : Char} {t : Token}
    (hcs : cs.dropWhile Text.isBlank = c :: rest) (h : read c rest = .ok (t, after)) :
    after.length < cs.length := by
  have hd := (List.dropWhile_sublist Text.isBlank (l := cs)).length_le
  have hr := length_read_le h
  rw [hcs, List.length_cons] at hd
  omega

end TurtleGraphics.Token

namespace TurtleGraphics

/-- The tokens of a line. -/
def Tokens.ofChars (cs : List Char) : Tokens :=
  match hcs : cs.dropWhile Text.isBlank with
  | [] => .finished
  | c :: rest =>
    if c = '#' then .finished
    else match h : Token.read c rest with
      | .error fault => .broken fault
      | .ok (t, after) =>
        have : after.length < cs.length := Token.length_lt_of_read hcs h
        .cons t (ofChars after)
termination_by cs.length

/-- The tokens of a line given as text. -/
def Tokens.ofString (s : String) : Tokens := ofChars s.toList

example : Tokens.ofString "fd( 1.5 ) # go" =
    .ofList [.word "fd", .leftParen, .number "1" (some "5"), .rightParen] := by decide +kernel

end TurtleGraphics
