import Mathlib.Algebra.Order.Field.Power
import Mathlib.Data.Rat.Floor
import Mathlib.Tactic.Linarith
import Mathlib.Tactic.Positivity
import TurtleGraphics.Proofs.Cursor.Zero

/-!
# Rounding to the nearest float

Every operation on floats takes the exact result and rounds it. The numbers it is rounded to are the
whole numbers of at most 53 bits times a power of two that is no finer than the least float; how
large they may become is left to the packing. What is used of rounding later on is only that no such
number is closer to the exact one: a number of that form is rounded to itself, and rounding never
steps over one. Main statements:

* `Binary64.IsNearest.le_of_le`, `Binary64.IsNearest.ge_of_ge`: what nearness entails;
* `Binary64.isNearest_roundedMantissa`: the round and sticky bits find the nearest mantissa.
-/

namespace TurtleGraphics.Binary64

open Float.Model UnpackedFloat

/-! ## Representable numbers -/

/-- Whether the number has the form of a float, were exponents not bounded above. -/
def IsRepresentable (q : ℚ) : Prop :=
  ∃ m e : ℤ, |m| ≤ 2 ^ 53 ∧ -1074 ≤ e ∧ q = m * 2 ^ e

namespace IsRepresentable

theorem intCast {n : ℤ} (h : |n| ≤ 2 ^ 53) : IsRepresentable n :=
  ⟨n, 0, h, by decide, by rw [zpow_zero, mul_one]⟩

theorem zero : IsRepresentable 0 := by
  simpa using intCast (n := 0) (by decide)

theorem neg {q : ℚ} (h : IsRepresentable q) : IsRepresentable (-q) := by
  obtain ⟨m, e, hm, he, rfl⟩ := h
  exact ⟨-m, e, by rwa [abs_neg], he, by rw [Int.cast_neg, neg_mul]⟩

theorem abs {q : ℚ} (h : IsRepresentable q) : IsRepresentable |q| := by
  obtain habs | habs := abs_choice q
  · rwa [habs]
  · rw [habs]
    exact h.neg

end IsRepresentable

/-! ## Nearest numbers -/

/-- Whether no representable number is closer to `q` than `v`. -/
structure IsNearest (q v : ℚ) : Prop where
  isRepresentable : IsRepresentable v
  abs_sub_le : ∀ w, IsRepresentable w → |v - q| ≤ |w - q|

namespace IsNearest

variable {q v w : ℚ}

/-- Rounding never steps over a representable number from below. -/
theorem le_of_le (h : IsNearest q v) (hw : IsRepresentable w) (hle : q ≤ w) : v ≤ w := by
  have hdist := h.abs_sub_le w hw
  rw [abs_of_nonneg (sub_nonneg.2 hle)] at hdist
  linarith [le_abs_self (v - q)]

/-- Rounding never steps over a representable number from above. -/
theorem ge_of_ge (h : IsNearest q v) (hw : IsRepresentable w) (hle : w ≤ q) : w ≤ v := by
  have hdist := h.abs_sub_le w hw
  rw [abs_of_nonpos (sub_nonpos.2 hle)] at hdist
  linarith [neg_abs_le (v - q)]

theorem refl (hq : IsRepresentable q) : IsNearest q q where
  isRepresentable := hq
  abs_sub_le w _ := by
    rw [sub_self, abs_zero]
    exact abs_nonneg _

theorem neg (h : IsNearest q v) : IsNearest (-q) (-v) where
  isRepresentable := h.isRepresentable.neg
  abs_sub_le w hw := by
    calc |-v - -q| = |v - q| := by rw [← abs_neg]; ring_nf
      _ ≤ |-w - q| := h.abs_sub_le _ hw.neg
      _ = |w - -q| := by rw [← abs_neg]; ring_nf

theorem abs_le_of_abs_le (h : IsNearest q v) (hw : IsRepresentable w) (hle : |q| ≤ w) :
    |v| ≤ w := by
  rw [abs_le] at hle ⊢
  exact ⟨h.ge_of_ge hw.neg hle.1, h.le_of_le hw hle.2⟩

/-- Rounding at most doubles a number. -/
theorem abs_le_two_mul (h : IsNearest q v) : |v| ≤ 2 * |q| := by
  have hzero := h.abs_sub_le 0 .zero
  rw [zero_sub, abs_neg] at hzero
  linarith [abs_sub_abs_le_abs_sub v q]

/-- A sum is rounded to a number that is not further from one term than twice the other. -/
theorem abs_le_add_two_mul {p d : ℚ} (h : IsNearest (p + d) v) (hp : IsRepresentable p) :
    |v| ≤ |p| + 2 * |d| := by
  have hdist := h.abs_sub_le p hp
  rw [sub_add_cancel_left, abs_neg] at hdist
  have hsum := abs_add_le p d
  linarith [abs_sub_abs_le_abs_sub v (p + d)]

/-- A number that takes up 53 bits, `k` of them after the point, is rounded by a unit of the last of
them at most. -/
theorem abs_sub_le_of_lt (h : IsNearest q v) {k : ℕ} (hk : k ≤ 1074)
    (hq : |q| * 2 ^ k < 2 ^ 53) : |v - q| ≤ 1 / 2 ^ k := by
  have hunit : (0 : ℚ) < 2 ^ k := by positivity
  rw [← abs_of_pos hunit, ← abs_mul, abs_lt] at hq
  have hlow : -2 ^ 53 ≤ ⌊q * 2 ^ k⌋ := Int.le_floor.2 (by exact_mod_cast hq.1.le)
  have hhigh : ⌊q * 2 ^ k⌋ < 2 ^ 53 := Int.floor_lt.2 (by exact_mod_cast hq.2)
  have hfloor : IsRepresentable (⌊q * 2 ^ k⌋ / 2 ^ k) :=
    ⟨⌊q * 2 ^ k⌋, -k, abs_le.2 ⟨hlow, hhigh.le⟩, by omega,
      by rw [zpow_neg, zpow_natCast, div_eq_mul_inv]⟩
  refine (h.abs_sub_le _ hfloor).trans ?_
  rw [abs_sub_comm, abs_of_nonneg (sub_nonneg.2 ((div_le_iff₀ hunit).2 (Int.floor_le _))),
    sub_le_iff_le_add, ← add_div, le_div_iff₀ hunit, add_comm]
  exact (Int.lt_floor_add_one _).le

end IsNearest

/-! ## Round and sticky bits -/

/-- The mantissa `m` with its last `k` bits shifted out. -/
def shifted (m k : Nat) : ExtendedMantissa :=
  ExtendedMantissa.ofMantissaAndAccuracy m .exact >>> k

theorem mantissa_shifted (m k : Nat) : (shifted m k).mantissa = m / 2 ^ k := by
  rw [shifted, mantissa_shiftRight, mantissa_ofMantissaAndAccuracy]

/-- The round bit says whether the bits that were shifted out make up half a unit. -/
theorem roundBit_shifted (m k : Nat) :
    (shifted m k).roundBit = true ↔ 2 ^ k ≤ 2 * (m % 2 ^ k) := by
  cases k with
  | zero =>
    rw [pow_zero, Nat.mod_one]
    exact ⟨nofun, nofun⟩
  | succ k =>
    have hlt := Nat.mod_lt m (Nat.two_pow_pos k)
    change ((shifted m k).mantissa % 2 != 0) = true ↔ _
    rw [bne_iff_ne, mantissa_shifted, Nat.mod_pow_succ, pow_succ]
    obtain hbit | hbit := Nat.mod_two_eq_zero_or_one (m / 2 ^ k)
    · rw [hbit]
      omega
    · rw [hbit]
      omega

/-- Without the sticky bit, they make up half a unit or nothing. -/
theorem eq_of_stickyBit_shifted {m k : Nat} (h : (shifted m k).stickyBit = false) :
    m % 2 ^ k = 0 ∨ 2 * (m % 2 ^ k) = 2 ^ k := by
  induction k with
  | zero => exact .inl (Nat.mod_one m)
  | succ k ih =>
    -- The bit that was the round bit has become part of the sticky bit.
    obtain ⟨hround, hsticky⟩ := Bool.or_eq_false_iff.1 h
    have hlt : 2 * (m % 2 ^ k) < 2 ^ k := by
      by_contra hle
      exact Bool.eq_false_iff.1 hround ((roundBit_shifted m k).2 (Nat.le_of_not_lt hle))
    have hzero : m % 2 ^ k = 0 := (ih hsticky).resolve_right hlt.ne
    rw [Nat.mod_pow_succ, hzero, pow_succ]
    obtain hbit | hbit := Nat.mod_two_eq_zero_or_one (m / 2 ^ k)
    · rw [hbit]
      omega
    · rw [hbit]
      omega

/-- A mantissa is rounded down by half a unit at most, and so it is rounded up. -/
theorem roundedMantissa_shifted_cases (m k : Nat) :
    (shifted m k).roundedMantissa = m / 2 ^ k ∧ 2 * (m % 2 ^ k) ≤ 2 ^ k ∨
      (shifted m k).roundedMantissa = m / 2 ^ k + 1 ∧ 2 ^ k ≤ 2 * (m % 2 ^ k) := by
  have hround := roundBit_shifted m k
  have hsticky := @eq_of_stickyBit_shifted m k
  rw [← mantissa_shifted m k]
  generalize shifted m k = em at *
  obtain ⟨mantissa, roundBit, stickyBit⟩ := em
  cases roundBit with
  | false =>
    have hlow : 2 * (m % 2 ^ k) ≤ 2 ^ k := by
      by_contra hlt
      cases hround.2 (Nat.le_of_not_le hlt)
    left
    cases stickyBit with
    | false => exact ⟨rfl, hlow⟩
    | true => exact ⟨rfl, hlow⟩
  | true =>
    have hhigh := hround.1 rfl
    cases stickyBit with
    | true => exact .inr ⟨rfl, hhigh⟩
    | false =>
      -- A tie goes to the even mantissa, on whichever side that is.
      have htie : 2 * (m % 2 ^ k) = 2 ^ k := by
        have hpos := Nat.two_pow_pos k
        have htie := hsticky rfl
        omega
      obtain heven | hodd := Nat.mod_two_eq_zero_or_one mantissa
      · exact .inl ⟨congrArg (mantissa + ·) heven, htie.le⟩
      · exact .inr ⟨congrArg (mantissa + ·) hodd, htie.ge⟩

/-- A mantissa is rounded by half a unit at most. -/
theorem roundedMantissa_shifted_bounds (m k : Nat) :
    2 * m ≤ 2 * ((shifted m k).roundedMantissa * 2 ^ k) + 2 ^ k ∧
      2 * ((shifted m k).roundedMantissa * 2 ^ k) ≤ 2 * m + 2 ^ k := by
  have hm := Nat.div_add_mod' m (2 ^ k)
  have hlt := Nat.mod_lt m (Nat.two_pow_pos k)
  obtain ⟨hdown, hrest⟩ | ⟨hup, hrest⟩ := roundedMantissa_shifted_cases m k
  · rw [hdown]
    omega
  · rw [hup, add_mul]
    omega

/-- No multiple of a step is closer than one that is off by half a step at most. -/
theorem abs_sub_le_of_multiple {q g : ℚ} (hg : 0 < g) {r : ℤ} (hhalf : |r * g - q| ≤ g / 2)
    (c : ℤ) : |r * g - q| ≤ |c * g - q| := by
  by_cases hc : c = r
  · rw [hc]
  · have hstep : g ≤ |c * g - r * g| := by
      have hone : (1 : ℚ) ≤ |((c - r : ℤ) : ℚ)| := by
        exact_mod_cast Int.one_le_abs (sub_ne_zero.2 hc)
      calc g = 1 * g := (one_mul g).symm
        _ ≤ |((c - r : ℤ) : ℚ)| * g := mul_le_mul_of_nonneg_right hone hg.le
        _ = |c * g - r * g| := by
          rw [← sub_mul, abs_mul, abs_of_pos hg, Int.cast_sub]
    have htriangle := abs_sub_le (c * g) q (r * g)
    rw [abs_sub_comm q] at htriangle
    linarith

/-- With its last bits shifted out, a mantissa is rounded to the nearest representable number, if
53 bits of it are left or the exponent is the least. -/
theorem isNearest_roundedMantissa {m k : Nat} {e : ℤ} (hleast : -1074 ≤ e + k)
    (hhigh : m < 2 ^ 53 * 2 ^ k) (hlow : -1074 < e + k → 2 ^ 52 * 2 ^ k ≤ m) :
    IsNearest (m * 2 ^ e) ((shifted m k).roundedMantissa * 2 ^ (e + k)) := by
  have hpos : (0 : ℚ) < 2 ^ e := by positivity
  have hg : (0 : ℚ) < 2 ^ (e + k) := by positivity
  have hstep : (2 : ℚ) ^ (e + k) = 2 ^ k * 2 ^ e := by
    rw [zpow_add₀ two_ne_zero, zpow_natCast, mul_comm]
  have hhalf : |(((shifted m k).roundedMantissa : ℤ) : ℚ) * 2 ^ (e + k) - m * 2 ^ e| ≤
      2 ^ (e + k) / 2 := by
    obtain ⟨hdown, hup⟩ := roundedMantissa_shifted_bounds m k
    have hdown' : (2 * m : ℚ) ≤ 2 * ((shifted m k).roundedMantissa * 2 ^ k) + 2 ^ k := by
      exact_mod_cast hdown
    have hup' : (2 * ((shifted m k).roundedMantissa * 2 ^ k) : ℚ) ≤ 2 * m + 2 ^ k := by
      exact_mod_cast hup
    rw [hstep, Int.cast_natCast, abs_le]
    constructor
    · nlinarith
    · nlinarith
  have hgrid := abs_sub_le_of_multiple hg hhalf
  refine ⟨⟨(shifted m k).roundedMantissa, e + k, ?_, hleast, rfl⟩, ?_⟩
  · have hdiv : m / 2 ^ k < 2 ^ 53 := (Nat.div_lt_iff_lt_mul (Nat.two_pow_pos k)).2 hhigh
    rw [Nat.abs_cast]
    obtain ⟨hr, -⟩ | ⟨hr, -⟩ := roundedMantissa_shifted_cases m k
    · omega
    · omega
  · rintro w ⟨a, b, ha, hb, rfl⟩
    obtain hge | hlt := le_or_gt (e + k) b
    · -- A number on the grid of the exponent.
      have hw : (a * 2 ^ b : ℚ) = (a * 2 ^ (b - (e + k)).toNat : ℤ) * 2 ^ (e + k) := by
        rw [Int.cast_mul, Int.cast_pow, Int.cast_ofNat, mul_assoc, ← zpow_natCast,
          ← zpow_add₀ two_ne_zero]
        congr 2
        omega
      rw [hw]
      exact hgrid _
    · -- A number on a finer grid is not above the least one with 53 bits on this grid.
      have hw : (a * 2 ^ b : ℚ) ≤ 2 ^ 52 * 2 ^ (e + k) := by
        have ha' : (a : ℚ) ≤ 2 ^ 53 := by exact_mod_cast (le_abs_self a).trans ha
        calc (a * 2 ^ b : ℚ) ≤ 2 ^ 53 * 2 ^ b := mul_le_mul_of_nonneg_right ha' (by positivity)
          _ = 2 ^ 52 * 2 ^ (b + 1) := by rw [zpow_add_one₀ two_ne_zero]; ring
          _ ≤ 2 ^ 52 * 2 ^ (e + k) := mul_le_mul_of_nonneg_left
            (zpow_le_zpow_right₀ one_le_two (by omega)) (by positivity)
      have hq : (2 ^ 52 * 2 ^ (e + k) : ℚ) ≤ m * 2 ^ e := by
        have hlow' : (2 ^ 52 * 2 ^ k : ℚ) ≤ m := by exact_mod_cast hlow (by omega)
        rw [hstep, ← mul_assoc]
        exact mul_le_mul_of_nonneg_right hlow' hpos.le
      have hbound := hgrid (2 ^ 52)
      rw [Int.cast_pow, Int.cast_ofNat, abs_sub_comm (2 ^ 52 * _),
        abs_of_nonneg (sub_nonneg.2 hq)] at hbound
      rw [abs_sub_comm (a * 2 ^ b : ℚ), abs_of_nonneg (sub_nonneg.2 (hw.trans hq))]
      exact hbound.trans (sub_le_sub_left hw _)

end TurtleGraphics.Binary64
