import TurtleGraphics.Decimal.Fixed
import TurtleGraphics.Decimal.Shortest

/-!
# Layouts of the shortest digits

A layout says where the point of a decimal goes and when the decimal is written with an exponent.
The digits are those of `shortest`; the sign of zero is kept.
-/

namespace TurtleGraphics.Decimal

/-- How the decimal `0.d₁d₂… * 10 ^ k` is laid out. -/
structure Layout where
  /-- The least and the greatest `k` without an exponent; with no bounds there never is one. -/
  positional : Option (Int × Int)
  /-- Whether a whole number is written with the fraction `.0`. -/
  keepsPoint : Bool
deriving DecidableEq, Repr

namespace Digits

/-- The decimal without an exponent: zeros fill the gap between its digits and its point. -/
def positional (keepsPoint : Bool) (d : Digits) : List Char :=
  if d.point ≤ 0 then
    '0' :: '.' :: List.replicate (-d.point).toNat '0' ++ d.digits
  else if d.digits.length ≤ d.point.toNat then
    d.digits ++ List.replicate (d.point.toNat - d.digits.length) '0' ++
      if keepsPoint then ['.', '0'] else []
  else
    d.digits.take d.point.toNat ++ '.' :: d.digits.drop d.point.toNat

/-- The decimal with one digit before its point and a signed exponent. -/
def scientific (d : Digits) : List Char :=
  let mantissa := match d.digits with
    | [] => ['0']
    | [c] => [c]
    | c :: rest => c :: '.' :: rest
  let exponent := d.point - 1
  mantissa ++ 'e' :: (if exponent < 0 then '-' else '+') :: Nat.toDigits 10 exponent.natAbs

end Digits

namespace Layout

/-- The decimal in this layout. -/
def digits (l : Layout) (d : Digits) : List Char :=
  match l.positional with
  | none => d.positional l.keepsPoint
  | some (least, greatest) =>
    if least ≤ d.point ∧ d.point ≤ greatest then d.positional l.keepsPoint else d.scientific

/-- The float `x` in this layout. -/
def text (l : Layout) (x : Float) : String :=
  String.ofList <| match Binary.ofFloat x with
    | .nan => ['N', 'a', 'N']
    | .infinite negative => sign negative ++ ['i', 'n', 'f']
    | .finite negative 0 _ => sign negative ++ '0' :: if l.keepsPoint then ['.', '0'] else []
    | .finite negative m q => sign negative ++ l.digits (shortest m q)

/-- Numbers in data: a fraction is always shown, and an exponent from `1e16` on and below `1e-5`. -/
def data : Layout := ⟨some (-4, 16), true⟩

/-- Numbers in running text: never an exponent, and no fraction on a whole number. -/
def plain : Layout := ⟨none, false⟩

example : data.text 100.0 = "100.0" ∧ data.text 1e16 = "1e+16" := by decide +kernel
example : data.text 1e-5 = "0.00001" ∧ data.text 1.5e-6 = "1.5e-6" := by decide +kernel
example : plain.text (-270.0) = "-270" ∧ plain.text 1e22 = "10000000000000000000000" := by
  decide +kernel

end Layout

end TurtleGraphics.Decimal
