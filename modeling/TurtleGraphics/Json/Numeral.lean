import TurtleGraphics.Json
import TurtleGraphics.Json.Fault

/-!
# Reading JSON numbers

A whole number in the range of 64-bit integers keeps its value. Any other number is read in two
parts: as many of its digits as fit in 64 bits, without a sign, and the power of ten that they are
to be scaled by. The digits that do not fit are dropped. A number that scaling takes beyond the
floats is a fault. Main statement: every numeral takes a character (`length_lt_of_readNumber`).
-/

namespace TurtleGraphics.Json

/-- The value of a decimal digit. -/
def digitValue (c : Char) : Nat := c.toNat - '0'.toNat

/-- Appends decimal digits to `value` as long as it stays below `2 ^ 64`, and counts the digits that
are left over. -/
def absorb (value : Nat) : List Char → Nat × Nat
  | [] => (value, 0)
  | d :: ds =>
    if 10 * value + digitValue d < UInt64.size then absorb (10 * value + digitValue d) ds
    else (value, ds.length + 1)

/-- The power of ten, as the nearest float. -/
def powerOfTen (n : Nat) : Float := .ofScientific 1 false n

/-- The greatest exponent of a power of ten that is a finite float. -/
def greatestPower : Nat := 308

/-- The float divided by a power of ten, by several of them if there is none that large. -/
def scaleDown (x : Float) (n : Nat) : Float :=
  if n ≤ greatestPower then x / powerOfTen n
  else if x == 0 then x
  else scaleDown (x / powerOfTen greatestPower) (n - greatestPower)
termination_by n
decreasing_by
  have : 0 < greatestPower := by decide
  omega

/-- The float `value * 10 ^ exponent`, if there is one. -/
def scale (value : Nat) : Int → Option Float
  | .negSucc n => some (scaleDown (.ofNat value) (n + 1))
  | .ofNat n =>
    if value = 0 then some 0
    else if greatestPower < n then none
    else
      let x := Float.ofNat value * powerOfTen n
      if x.isInf then none else some x

/-- The number with these digits, sign and power of ten, read before `rest`. -/
def decimal (negative : Bool) (value : Nat) (exponent : Int) (rest : List Char) :
    Except Fault (Number × List Char) :=
  match scale value exponent with
  | none => .error (.before .numberOutOfRange rest)
  | some x => .ok (.decimal (if negative then -x else x), rest)

/-- The whole number with this value and sign. A negative zero and a number that has no 64-bit form
are floats. -/
def whole (negative : Bool) (value : Nat) : Number :=
  if !negative then .whole value
  else if value = 0 ∨ Nat.pow 2 63 < value then .decimal (-.ofNat value)
  else .whole (-value)

/-- Whether an exponent begins with `c`. -/
def isExponentMark (c : Char) : Bool := c = 'e' || c = 'E'

/-- The sign that an exponent may begin with, and what follows it. -/
def exponentSign : List Char → Bool × List Char
  | '-' :: rest => (true, rest)
  | '+' :: rest => (false, rest)
  | rest => (false, rest)

/-- Goes on with the digits of an exponent, of which there has to be one. -/
def readExponent (negative : Bool) (value : Nat) (exponent : Int) (cs : List Char) :
    Except Fault (Number × List Char) :=
  let (down, digits) := exponentSign cs
  match digits.takeWhile Char.isDigit with
  | [] =>
    .error (.atNext (if digits = [] then .unfinishedValue else .invalidNumber) digits)
  | ds =>
    let n : Int := (ds.foldl (fun n c ↦ 10 * n + digitValue c) 0 : Nat)
    decimal negative value (if down then exponent - n else exponent + n)
      (digits.dropWhile Char.isDigit)

/-- Goes on with the digits after a point, of which there has to be one. -/
def readFraction (negative : Bool) (value : Nat) (exponent : Int) (cs : List Char) :
    Except Fault (Number × List Char) :=
  match cs.takeWhile Char.isDigit with
  | [] => .error (.atNext (if cs = [] then .unfinishedValue else .invalidNumber) cs)
  | ds =>
    let (value, left) := absorb value ds
    let exponent := exponent - (ds.length - left : Nat)
    match cs.dropWhile Char.isDigit with
    | [] => decimal negative value exponent []
    | c :: rest =>
      if isExponentMark c then readExponent negative value exponent rest
      else decimal negative value exponent (c :: rest)

/-- Goes on after the digits before the point, of which `left` did not fit. -/
def afterWhole (negative : Bool) (value left : Nat) (cs : List Char) :
    Except Fault (Number × List Char) :=
  let plain : Except Fault (Number × List Char) :=
    if left = 0 then .ok (whole negative value, cs) else decimal negative value left cs
  match cs with
  | [] => plain
  | c :: rest =>
    if c = '.' then readFraction negative value left rest
    else if isExponentMark c then readExponent negative value left rest
    else plain

/-- The number that the characters begin with, after its sign. A number with more than one digit
does not begin with zero. -/
def readNumber (negative : Bool) : List Char → Except Fault (Number × List Char)
  | [] => .error (.atNext .unfinishedValue [])
  | c :: cs =>
    if c = '0' then
      if cs.head?.any Char.isDigit then .error (.atNext .invalidNumber cs)
      else afterWhole negative 0 0 cs
    else if c.isDigit then
      let (value, left) := absorb (digitValue c) (cs.takeWhile Char.isDigit)
      afterWhole negative value left (cs.dropWhile Char.isDigit)
    else .error (.atNext .invalidNumber (c :: cs))

/-! ## Every numeral takes a character -/

theorem length_le_of_decimal {negative : Bool} {value : Nat} {exponent : Int}
    {cs rest : List Char} {n : Number} (h : decimal negative value exponent cs = .ok (n, rest)) :
    rest.length ≤ cs.length := by
  unfold decimal at h
  split at h
  · simp at h
  · simp only [Except.ok.injEq, Prod.mk.injEq] at h
    exact Nat.le_of_eq (by rw [h.2])

theorem length_exponentSign_le (cs : List Char) :
    (exponentSign cs).2.length ≤ cs.length := by
  unfold exponentSign
  split <;> simp

theorem length_le_of_readExponent {negative : Bool} {value : Nat} {exponent : Int}
    {cs rest : List Char} {n : Number}
    (h : readExponent negative value exponent cs = .ok (n, rest)) :
    rest.length ≤ cs.length := by
  have hs := length_exponentSign_le cs
  have hd := (List.dropWhile_sublist Char.isDigit (l := (exponentSign cs).2)).length_le
  unfold readExponent at h
  simp only at h
  split at h
  · simp at h
  · have := length_le_of_decimal h
    omega

theorem length_le_of_readFraction {negative : Bool} {value : Nat} {exponent : Int}
    {cs rest : List Char} {n : Number}
    (h : readFraction negative value exponent cs = .ok (n, rest)) :
    rest.length ≤ cs.length := by
  have hd := (List.dropWhile_sublist Char.isDigit (l := cs)).length_le
  unfold readFraction at h
  split at h
  · simp at h
  · simp only at h
    split at h
    · have := length_le_of_decimal h
      simp only [List.length_nil] at this
      omega
    · rename_i hc
      rw [hc, List.length_cons] at hd
      split at h
      · have := length_le_of_readExponent h
        omega
      · have := length_le_of_decimal h
        rw [List.length_cons] at this
        omega

theorem length_le_of_afterWhole {negative : Bool} {value left : Nat} {cs rest : List Char}
    {n : Number} (h : afterWhole negative value left cs = .ok (n, rest)) :
    rest.length ≤ cs.length := by
  unfold afterWhole at h
  simp only at h
  split at h
  · split at h
    · simp_all
    · exact length_le_of_decimal h
  · split at h
    · exact Nat.le_succ_of_le (length_le_of_readFraction h)
    · split at h
      · exact Nat.le_succ_of_le (length_le_of_readExponent h)
      · split at h
        · simp_all
        · exact length_le_of_decimal h

theorem length_lt_of_readNumber {negative : Bool} {cs rest : List Char} {n : Number}
    (h : readNumber negative cs = .ok (n, rest)) : rest.length < cs.length := by
  unfold readNumber at h
  split at h
  · simp at h
  · rename_i c cs
    have hd := (List.dropWhile_sublist Char.isDigit (l := cs)).length_le
    split at h
    · split at h
      · simp at h
      · exact Nat.lt_succ_of_le (length_le_of_afterWhole h)
    · split at h
      · have := length_le_of_afterWhole h
        rw [List.length_cons]; omega
      · simp at h

end TurtleGraphics.Json
