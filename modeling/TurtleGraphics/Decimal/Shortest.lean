import TurtleGraphics.Decimal.Binary
import TurtleGraphics.Decimal.Expansion

/-!
# The fewest digits that read back

Every float is the nearest one to an interval of real numbers. Among the decimals in that interval
the ones with the fewest digits are taken, and of those the nearest to the float; of two equally
near the one with the even last digit.

All numbers here are whole multiples of one unit, a negative power of ten. A grid is the set of
multiples of a power of ten: the search starts with the coarsest grid on which the float has a
neighbour other than zero, and stops at the first grid that has a point in the interval. If any
point of a grid is in the interval then so is one of the two grid points next to the float, so only
these two are tried.
-/

namespace TurtleGraphics.Decimal

/-- The decimals that read back as one float, all in the same unit. -/
structure Interval where
  low : Nat
  center : Nat
  high : Nat
  /-- The ends read back too: a half is rounded to the even mantissa. -/
  closed : Bool
deriving Repr

namespace Interval

/-- The interval of the float `m * 2 ^ q` and the places of its unit. It reaches half way to each
neighbour; below a power of two the neighbours lie twice as close. -/
def ofBinary (m : Nat) (q : Int) : Interval × Nat :=
  let below := if m = Binary.hiddenBit ∧ q ≠ Binary.leastExponent then 1 else 2
  let center := Expansion.ofBinary (4 * m) (q - 2)
  ⟨⟨(Expansion.ofBinary (4 * m - below) (q - 2)).units, center.units,
    (Expansion.ofBinary (4 * m + 2) (q - 2)).units, m % 2 = 0⟩, center.places⟩

/-- Whether the number reads back as the float. -/
def contains (i : Interval) (n : Nat) : Bool :=
  if i.closed then i.low ≤ n && n ≤ i.high else i.low < n && n < i.high

/-- The point of the grid with the given step that is in the interval and nearest to its center. -/
def nearest? (i : Interval) (step : Nat) : Option Nat :=
  let floor := i.center / step * step
  let ceiling := floor + step
  if i.contains floor then
    if i.contains ceiling ∧ roundDiv i.center step * step = ceiling then some ceiling
    else some floor
  else if i.contains ceiling then some ceiling
  else none

/-- The nearest point in the interval on the coarsest grid that has one, of the grids with a step of
at most `10 ^ e`. -/
def coarsest (i : Interval) : Nat → Nat
  | 0 => i.center
  | e + 1 => (i.nearest? (Nat.pow 10 (e + 1))).getD (coarsest i e)

end Interval

/-- The digits of a decimal `0.d₁d₂… * 10 ^ point`. -/
structure Digits where
  digits : List Char
  point : Int
deriving DecidableEq, Repr

/-- The digits of `n / 10 ^ places`, without the zeros at their end. -/
def Digits.ofNat (n places : Nat) : Digits :=
  let all := Nat.toDigits 10 n
  ⟨(all.reverse.dropWhile (· = '0')).reverse, (all.length : Int) - places⟩

/-- The fewest digits that read back as the float `m * 2 ^ q`, nearest to it. -/
def shortest (m : Nat) (q : Int) : Digits :=
  let (i, places) := Interval.ofBinary m q
  .ofNat (i.coarsest ((Nat.toDigits 10 i.center).length - 1)) places

/-! ## What the search finds -/

namespace Interval

theorem contains_of_nearest?_eq_some {i : Interval} {step n : Nat} (h : i.nearest? step = some n) :
    i.contains n := by
  unfold nearest? at h
  simp only at h
  split at h
  · split at h <;> simp_all
  · split at h <;> simp_all

/-- Every answer reads back, if the float itself does. -/
theorem contains_coarsest {i : Interval} (h : i.contains i.center) (e : Nat) :
    i.contains (i.coarsest e) := by
  induction e with
  | zero => exact h
  | succ e ih =>
    unfold coarsest
    cases hn : i.nearest? (Nat.pow 10 (e + 1)) with
    | none => simpa using ih
    | some n => simpa using contains_of_nearest?_eq_some hn

end Interval

/-- The least float is shown by one digit, the nearest of those that read back. -/
example : shortest 1 Binary.leastExponent = ⟨['5'], -323⟩ := by decide +kernel

/-- One tenth, as the nearest float to it. -/
example : shortest 7205759403792794 (-56) = ⟨['1'], 0⟩ := by decide +kernel

end TurtleGraphics.Decimal
