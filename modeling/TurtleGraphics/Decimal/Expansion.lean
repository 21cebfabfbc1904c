/-!
# Finite decimal expansions

A binary fraction has a finite decimal expansion, since `2 ^ -n = 5 ^ n / 10 ^ n`: it is a whole
number of units of its last place. Here is that expansion, and its value rounded to a given number
of places.
-/

namespace TurtleGraphics.Decimal

/-- The number `units / 10 ^ places`. -/
structure Expansion where
  units : Nat
  places : Nat
deriving DecidableEq, Repr

/-- The whole number nearest to `a / b`; a half goes to the even neighbour. -/
def roundDiv (a b : Nat) : Nat :=
  if 2 * (a % b) < b then a / b
  else if b < 2 * (a % b) then a / b + 1
  else a / b + a / b % 2

namespace Expansion

/-- The expansion of `m * 2 ^ q`. -/
def ofBinary (m : Nat) : Int → Expansion
  | .ofNat n => ⟨m * Nat.pow 2 n, 0⟩
  | .negSucc n => ⟨m * Nat.pow 5 (n + 1), n + 1⟩

/-- How many units of the `n`th place are nearest to the number; a half goes to the even count. -/
def roundTo (n : Nat) (e : Expansion) : Nat :=
  if e.places ≤ n then e.units * Nat.pow 10 (n - e.places)
  else roundDiv e.units (Nat.pow 10 (e.places - n))

end Expansion

/-! ## Rounding is within half a unit -/

/-- The rounded quotient is at most half a divisor above the dividend … -/
theorem two_mul_roundDiv_mul_le {a b : Nat} : 2 * (roundDiv a b * b) ≤ 2 * a + b := by
  have h := Nat.div_add_mod' a b
  unfold roundDiv
  split
  · omega
  · split
    · rw [Nat.add_mul]; omega
    · rcases Nat.mod_two_eq_zero_or_one (a / b) with h' | h' <;> rw [h', Nat.add_mul] <;> omega

/-- … and at most half a divisor below it. -/
theorem le_two_mul_roundDiv_mul {a b : Nat} (hb : 0 < b) : 2 * a ≤ 2 * (roundDiv a b * b) + b := by
  have h := Nat.div_add_mod' a b
  have hlt := Nat.mod_lt a hb
  unfold roundDiv
  split
  · omega
  · split
    · rw [Nat.add_mul]; omega
    · rcases Nat.mod_two_eq_zero_or_one (a / b) with h' | h' <;> rw [h', Nat.add_mul] <;> omega

/-- A half goes to an even number. -/
theorem roundDiv_even_of_tie {a b : Nat} (h : 2 * (a % b) = b) : roundDiv a b % 2 = 0 := by
  unfold roundDiv
  rw [if_neg (by omega), if_neg (by omega)]
  omega

example : roundDiv 625 10 = 62 ∧ roundDiv 1875 10 = 188 ∧ roundDiv 15 10 = 2 := by decide

end TurtleGraphics.Decimal
