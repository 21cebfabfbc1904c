import TurtleGraphics.Json.Fault

/-!
# Reading JSON strings

A string goes up to the next quote that is not escaped. Control characters have to be escaped. A
character above U+FFFF is escaped as two surrogates, and a surrogate has no other use. Main
statement: what follows a string is shorter than what the string was read from
(`length_lt_of_readString`).
-/

namespace TurtleGraphics.Json

/-- The value of a hexadecimal digit. -/
def hexValue? (c : Char) : Option Nat :=
  if c.isDigit then some (c.toNat - '0'.toNat)
  else if 'a' ≤ c ∧ c ≤ 'f' then some (c.toNat - 'a'.toNat + 10)
  else if 'A' ≤ c ∧ c ≤ 'F' then some (c.toNat - 'A'.toNat + 10)
  else none

/-- The number of four hexadecimal digits. -/
def hexNumber? (a b c d : Char) : Option Nat := do
  return 4096 * (← hexValue? a) + 256 * (← hexValue? b) + 16 * (← hexValue? c) + (← hexValue? d)

/-- Reads four hexadecimal digits. They take four bytes; if fewer than that are left the string is
unfinished, whatever they are. -/
def readHex (cs : List Char) : Except Fault (Nat × List Char) :=
  if byteLength (cs.take 4) < 4 then .error ⟨.unfinishedString, 0⟩
  else
    let invalid : Except Fault (Nat × List Char) := .error ⟨.invalidEscape, byteLength cs - 4⟩
    match cs with
    | a :: b :: c :: d :: rest =>
      match hexNumber? a b c d with
      | some n => .ok (n, rest)
      | none => invalid
    | _ => invalid

/-- Whether `n` is the first one of two surrogates. -/
def isHighSurrogate (n : Nat) : Bool := 0xD800 ≤ n && n ≤ 0xDBFF

/-- Whether `n` is the second one of two surrogates. -/
def isLowSurrogate (n : Nat) : Bool := 0xDC00 ≤ n && n ≤ 0xDFFF

/-- The character that two surrogates stand for. -/
def surrogatePair (high low : Nat) : Char :=
  .ofNat ((high - 0xD800) * 0x400 + (low - 0xDC00) + 0x10000)

/-- Reads the second surrogate, which is escaped like the first. -/
def readLowSurrogate (high : Nat) : List Char → Except Fault (Char × List Char)
  | [] => .error (.atNext .unfinishedString [])
  | '\\' :: cs =>
    match cs with
    | [] => .error (.atNext .unfinishedString [])
    | 'u' :: cs =>
      match readHex cs with
      | .error fault => .error fault
      | .ok (low, rest) =>
        if isLowSurrogate low then .ok (surrogatePair high low, rest)
        else .error (.before .loneSurrogate rest)
    | cs => .error (.atNext .unfinishedSurrogate cs)
  | cs => .error (.atNext .unfinishedSurrogate cs)

/-- Reads a character that is escaped by its code. -/
def readCode (cs : List Char) : Except Fault (Char × List Char) :=
  match readHex cs with
  | .error fault => .error fault
  | .ok (n, rest) =>
    if isLowSurrogate n then .error (.before .loneSurrogate rest)
    else if isHighSurrogate n then readLowSurrogate n rest
    else .ok (.ofNat n, rest)

/-- The character that a letter after the backslash stands for. -/
def shortEscape? : Char → Option Char
  | '"' => some '"'
  | '\\' => some '\\'
  | '/' => some '/'
  | 'b' => some '\x08'
  | 'f' => some '\x0c'
  | 'n' => some '\n'
  | 'r' => some '\r'
  | 't' => some '\t'
  | _ => none

/-- Reads what follows a backslash. -/
def readEscape : List Char → Except Fault (Char × List Char)
  | [] => .error (.atNext .unfinishedString [])
  | c :: cs =>
    if c = 'u' then readCode cs
    else match shortEscape? c with
      | some d => .ok (d, cs)
      | none => .error (.atNext .invalidEscape (c :: cs))

/-! ## Every escape takes a character -/

theorem length_le_of_readHex {cs rest : List Char} {n : Nat} (h : readHex cs = .ok (n, rest)) :
    rest.length ≤ cs.length := by
  unfold readHex at h
  simp only at h
  split at h
  · simp at h
  · split at h
    · split at h
      · simp only [Except.ok.injEq, Prod.mk.injEq] at h
        simp only [← h.2, List.length_cons]; omega
      · simp at h
    · simp at h

theorem length_le_of_readLowSurrogate {high : Nat} {cs rest : List Char} {c : Char}
    (h : readLowSurrogate high cs = .ok (c, rest)) : rest.length ≤ cs.length := by
  unfold readLowSurrogate at h
  split at h
  · simp at h
  · split at h
    · simp at h
    · split at h
      · simp at h
      · rename_i hx
        have := length_le_of_readHex hx
        split at h
        · simp only [Except.ok.injEq, Prod.mk.injEq] at h
          simp only [← h.2, List.length_cons]; omega
        · simp at h
    · simp at h
  · simp at h

theorem length_le_of_readCode {cs rest : List Char} {c : Char}
    (h : readCode cs = .ok (c, rest)) : rest.length ≤ cs.length := by
  unfold readCode at h
  split at h
  · simp at h
  · rename_i hx
    have hx := length_le_of_readHex hx
    split at h
    · simp at h
    · split at h
      · exact Nat.le_trans (length_le_of_readLowSurrogate h) hx
      · simp only [Except.ok.injEq, Prod.mk.injEq] at h
        simpa only [← h.2] using hx

theorem length_lt_of_readEscape {cs rest : List Char} {c : Char}
    (h : readEscape cs = .ok (c, rest)) : rest.length < cs.length := by
  unfold readEscape at h
  split at h
  · simp at h
  · split at h
    · exact Nat.lt_succ_of_le (length_le_of_readCode h)
    · split at h
      · simp only [Except.ok.injEq, Prod.mk.injEq] at h
        simp [← h.2]
      · simp at h

/-- Reads characters up to the closing quote, after those in `before`, the last of which comes
first. -/
def readChars (before : List Char) : List Char → Except Fault (String × List Char)
  | [] => .error (.atNext .unfinishedString [])
  | c :: cs =>
    if c = '"' then .ok (String.ofList before.reverse, cs)
    else if c = '\\' then
      match h : readEscape cs with
      | .error fault => .error fault
      | .ok (d, rest) =>
        have : rest.length < cs.length := length_lt_of_readEscape h
        readChars (d :: before) rest
    else if c.toNat < 0x20 then .error (.atNext .controlCharacter (c :: cs))
    else readChars (c :: before) cs
termination_by cs => cs.length
decreasing_by
  · exact Nat.lt_succ_of_lt this
  · exact Nat.lt_succ_self _

/-- Reads a string after its opening quote. -/
def readString (cs : List Char) : Except Fault (String × List Char) := readChars [] cs

theorem length_lt_of_readChars {before cs rest : List Char} {s : String}
    (h : readChars before cs = .ok (s, rest)) : rest.length < cs.length := by
  fun_induction readChars before cs with
  | case1 => simp at h
  | case2 => simp_all
  | case3 => simp at h
  | case4 before cs d after _ hlt _ ih =>
    have := ih h
    rw [List.length_cons]
    omega
  | case5 => simp at h
  | case6 before c cs _ _ _ ih => exact Nat.lt_succ_of_lt (ih h)

theorem length_lt_of_readString {cs rest : List Char} {s : String}
    (h : readString cs = .ok (s, rest)) : rest.length < cs.length :=
  length_lt_of_readChars h

end TurtleGraphics.Json
