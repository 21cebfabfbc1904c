/-!
# Floats as binary fractions

A float is read apart into its sign, a whole mantissa and a power of two, so that everything said
about its decimal digits is exact arithmetic on natural numbers.
-/

namespace TurtleGraphics.Decimal

/-- What a float denotes: a signed multiple `mantissa * 2 ^ exponent`, an infinity or no number. -/
inductive Binary where
  | nan
  | infinite (negative : Bool)
  | finite (negative : Bool) (mantissa : Nat) (exponent : Int)
deriving DecidableEq, Repr

namespace Binary

/-- The mantissa of the least normal float: the fraction field holds what lies above it. -/
def hiddenBit : Nat := Nat.pow 2 52

/-- The place of the sign. -/
def signBit : Nat := Nat.pow 2 63

/-- The exponent of the subnormal floats, the least there is. -/
def leastExponent : Int := -1074

/-- The float with the given fields: sign, biased exponent (eleven bits) and fraction (52 bits). -/
def ofFields (negative : Bool) (biased fraction : Nat) : Binary :=
  if biased = 2047 then if fraction = 0 then .infinite negative else .nan
  else if biased = 0 then .finite negative fraction leastExponent
  else .finite negative (fraction + hiddenBit) (biased - 1 + leastExponent)

/-- The fields of a 64-bit pattern, read apart by place value. -/
def ofBits (bits : Nat) : Binary :=
  ofFields (bits / signBit % 2 = 1) (bits / hiddenBit % 2048) (bits % hiddenBit)

/-- What the float `x` denotes. -/
def ofFloat (x : Float) : Binary := ofBits x.toBits.toNat

example : ofFloat 1.0 = .finite false hiddenBit (-52) := by decide
example : ofFloat (-0.0) = .finite true 0 (-1074) := by decide
example : ofFloat (1.0 / 0.0) = .infinite false := by decide

end Binary

end TurtleGraphics.Decimal
