import TurtleGraphics.Decimal.Binary
import TurtleGraphics.Decimal.Expansion

/-!
# Numbers with a fixed number of places

The exact value of a float is rounded to the last place that is shown; a half goes to the even
digit. There is never an exponent, and the sign of zero is kept.
-/

namespace TurtleGraphics.Decimal

/-- The sign of a number that has one to show. -/
def sign (negative : Bool) : List Char := if negative then ['-'] else []

/-- The number `units / 10 ^ places`, all its places written. -/
def pointed (places units : Nat) : List Char :=
  let digits := Nat.toDigits 10 units
  let padded := List.replicate (places + 1 - digits.length) '0' ++ digits
  padded.take (padded.length - places) ++ '.' :: padded.drop (padded.length - places)

/-- The float `x` with the given number of places after the point. -/
def fixed (places : Nat) (x : Float) : String :=
  String.ofList <| match Binary.ofFloat x with
    | .nan => ['N', 'a', 'N']
    | .infinite negative => sign negative ++ ['i', 'n', 'f']
    | .finite negative m q =>
      sign negative ++ pointed places ((Expansion.ofBinary m q).roundTo places)

example : pointed 3 62 = "0.062".toList := by decide +kernel
example : fixed 3 (-0.0) = "-0.000" := by decide +kernel
example : fixed 3 0.0625 = "0.062" ∧ fixed 3 0.1875 = "0.188" := by decide +kernel

end TurtleGraphics.Decimal
