import TurtleGraphics.Json.Numeral
import TurtleGraphics.Json.Quoted

/-!
# Reading JSON

A text is read from left to right and the first fault counts. Brackets may be nested to a fixed
depth, which is also what the recursion goes by. What follows a value is shorter than the value with
what follows it, so lists and objects come to an end.
-/

namespace TurtleGraphics.Json

/-- The result of reading something at the front of `cs`: what was read, and a rest that is shorter
than `cs`. -/
abbrev Reading (α : Type) (cs : List Char) : Type :=
  Except Fault (α × { rest : List Char // rest.length < cs.length })

namespace Reading

variable {α β : Type}

/-- A reading of characters that more characters may stand before. -/
def weaken {cs ds : List Char} (h : cs.length ≤ ds.length) (f : α → β) :
    Reading α cs → Reading β ds
  | .error fault => .error fault
  | .ok (a, ⟨rest, hr⟩) => .ok (f a, ⟨rest, Nat.lt_of_lt_of_le hr h⟩)

/-- The reading of a function whose rest is known to be shorter. -/
def ofExcept {cs : List Char} (r : Except Fault (α × List Char))
    (h : ∀ a rest, r = .ok (a, rest) → rest.length < cs.length) : Reading α cs :=
  match r, h with
  | .error fault, _ => .error fault
  | .ok (a, rest), h => .ok (a, ⟨rest, h a rest rfl⟩)

end Reading

/-- Whether `c` may stand between the parts of a value. -/
def isSpace (c : Char) : Bool := c = ' ' || c = '\n' || c = '\t' || c = '\r'

/-- The text without the space at its beginning. -/
def skipSpace (cs : List Char) : List Char := cs.dropWhile isSpace

theorem length_skipSpace_le (cs : List Char) : (skipSpace cs).length ≤ cs.length :=
  (List.dropWhile_sublist _).length_le

theorem length_le_of_skipSpace {cs rest : List Char} {c : Char} (h : skipSpace cs = c :: rest) :
    (c :: rest).length ≤ cs.length := h ▸ length_skipSpace_le cs

theorem length_lt_of_skipSpace {cs rest : List Char} {c : Char} (h : skipSpace cs = c :: rest) :
    rest.length < cs.length := length_le_of_skipSpace h

/-- Reads the letters of a fixed word. -/
def readWord : List Char → List Char → Except Fault (List Char)
  | [], cs => .ok cs
  | _ :: _, [] => .error (.atNext .unfinishedValue [])
  | w :: ws, c :: cs => if c = w then readWord ws cs else .error (.atNext .expectedWord (c :: cs))

theorem length_le_of_readWord {ws cs rest : List Char} (h : readWord ws cs = .ok rest) :
    rest.length ≤ cs.length := by
  induction ws generalizing cs with
  | nil => simp_all [readWord]
  | cons w ws ih =>
    cases cs with
    | nil => simp [readWord] at h
    | cons c cs =>
      unfold readWord at h
      split at h
      · exact Nat.le_succ_of_le (ih h)
      · simp at h

/-- Reads a word that stands for `value`, after its first letter. -/
def readConstant {α : Type} (value : α) (ws : List Char) (c : Char) (cs : List Char) :
    Reading α (c :: cs) :=
  .ofExcept ((readWord ws cs).map (value, ·)) fun a rest h ↦ by
    cases hw : readWord ws cs with
    | error fault => simp [hw, Except.map] at h
    | ok r =>
      simp only [hw, Except.map, Except.ok.injEq, Prod.mk.injEq] at h
      rw [← h.2]
      exact Nat.lt_succ_of_le (length_le_of_readWord hw)

/-- Reads a value that has no brackets and begins with `c`. -/
def readScalar (c : Char) (cs : List Char) : Reading Json (c :: cs) :=
  if c = 'n' then readConstant null ['u', 'l', 'l'] c cs
  else if c = 't' then readConstant (bool true) ['r', 'u', 'e'] c cs
  else if c = 'f' then readConstant (bool false) ['a', 'l', 's', 'e'] c cs
  else if c = '"' then
    Reading.weaken (show cs.length ≤ (c :: cs).length from Nat.le_succ _) Json.string
      (.ofExcept (readString cs) fun _ _ ↦ length_lt_of_readString)
  else if c = '-' then
    Reading.weaken (show cs.length ≤ (c :: cs).length from Nat.le_succ _) Json.number
      (.ofExcept (readNumber true cs) fun _ _ ↦ length_lt_of_readNumber)
  else if c.isDigit then
    Reading.weaken (Nat.le_refl _) Json.number
      (.ofExcept (readNumber false (c :: cs)) fun _ _ ↦ length_lt_of_readNumber)
  else .error (.atNext .expectedValue (c :: cs))

/-- Reads one value of a list and all that follow it, up to the bracket that ends the list. -/
def readItems {α : Type} (element : (cs : List Char) → Reading α cs) (cs : List Char) :
    Reading (List α) cs :=
  match element cs with
  | .error fault => .error fault
  | .ok (v, ⟨afterValue, hv⟩) =>
    match hr : skipSpace afterValue with
    | [] => .error (.atNext .unfinishedList [])
    | c :: rest =>
      have h : rest.length < cs.length := Nat.lt_trans (length_lt_of_skipSpace hr) hv
      if c = ']' then .ok ([v], ⟨rest, h⟩)
      else if c = ',' then
        match skipSpace rest with
        | [] => .error (.atNext .unfinishedValue [])
        | ']' :: more => .error (.atNext .trailingComma (']' :: more))
        | _ => (readItems element rest).weaken (Nat.le_of_lt h) (v :: ·)
      else .error (.atNext .expectedListEnd (c :: rest))
termination_by cs.length

/-- Reads a list after its opening bracket. -/
def readList {α : Type} (element : (cs : List Char) → Reading α cs) (cs : List Char) :
    Reading (List α) cs :=
  match h : skipSpace cs with
  | [] => .error (.atNext .unfinishedList [])
  | c :: rest =>
    if c = ']' then .ok ([], ⟨rest, length_lt_of_skipSpace h⟩) else readItems element cs

/-- Reads one member of an object, after the quote that opens its key, and all that follow it, up to
the bracket that ends the object. -/
def readMembers {α : Type} (element : (cs : List Char) → Reading α cs) (cs : List Char) :
    Reading (List (String × α)) cs :=
  match hk : readString cs with
  | .error fault => .error fault
  | .ok (key, afterKey) =>
    have hk := length_lt_of_readString hk
    match hc : skipSpace afterKey with
    | [] => .error (.atNext .unfinishedObject [])
    | ':' :: value =>
      have hc := length_lt_of_skipSpace hc
      match element value with
      | .error fault => .error fault
      | .ok (v, ⟨afterValue, hv⟩) =>
        match hr : skipSpace afterValue with
        | [] => .error (.atNext .unfinishedObject [])
        | c :: rest =>
          have h : rest.length < cs.length := by
            have := length_lt_of_skipSpace hr
            omega
          if c = '\x7d' then .ok ([(key, v)], ⟨rest, h⟩)
          else if c = ',' then
            match hn : skipSpace rest with
            | [] => .error (.atNext .unfinishedValue [])
            | d :: next =>
              have hn := length_lt_of_skipSpace hn
              if d = '"' then
                (readMembers element next).weaken (by omega) ((key, v) :: ·)
              else if d = '\x7d' then .error (.atNext .trailingComma (d :: next))
              else .error (.atNext .keyNotString (d :: next))
          else .error (.atNext .expectedObjectEnd (c :: rest))
    | c :: rest => .error (.atNext .expectedColon (c :: rest))
termination_by cs.length

/-- Reads an object after its opening bracket. -/
def readObject {α : Type} (element : (cs : List Char) → Reading α cs) (cs : List Char) :
    Reading (List (String × α)) cs :=
  match h : skipSpace cs with
  | [] => .error (.atNext .unfinishedObject [])
  | c :: rest =>
    if c = '\x7d' then .ok ([], ⟨rest, length_lt_of_skipSpace h⟩)
    else if c = '"' then
      (readMembers element rest).weaken (Nat.le_of_lt (length_lt_of_skipSpace h)) id
    else .error (.atNext .keyNotString (c :: rest))

/-- Reads a value in which `depth` brackets may be open at once. -/
def readValue (depth : Nat) (cs : List Char) : Reading Json cs :=
  match h : skipSpace cs with
  | [] => .error (.atNext .unfinishedValue [])
  | c :: rest =>
    have hr := Nat.le_of_lt (length_lt_of_skipSpace h)
    if c = '[' then
      match depth with
      | 0 => .error (.atNext .tooDeep (c :: rest))
      | depth + 1 => (readList (readValue depth) rest).weaken hr .array
    else if c = '\x7b' then
      match depth with
      | 0 => .error (.atNext .tooDeep (c :: rest))
      | depth + 1 => (readObject (readValue depth) rest).weaken hr ofMembers
    else (readScalar c rest).weaken (length_le_of_skipSpace h) id

/-- How many brackets may be open at once. -/
def greatestDepth : Nat := 127

/-- Reads a text that holds one value and nothing else. -/
def ofChars (cs : List Char) : Except Fault Json :=
  match readValue greatestDepth cs with
  | .error fault => .error fault
  | .ok (v, ⟨rest, _⟩) =>
    match skipSpace rest with
    | [] => .ok v
    | c :: rest => .error (.atNext .trailingCharacters (c :: rest))

/-- The JSON value that a text is. -/
def ofString (s : String) : Except Fault Json := ofChars s.toList

end TurtleGraphics.Json
