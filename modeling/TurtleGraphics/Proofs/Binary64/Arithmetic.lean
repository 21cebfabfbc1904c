import TurtleGraphics.Proofs.Binary64.Value

/-!
# Arithmetic on floats

The sum, the difference and the product of finite floats are what the exact results are rounded to,
or infinite if that is too large. So is the float that a whole number is turned into. Main
statements:

* `Binary64.isRounding_add`, `Binary64.isRounding_sub`, `Binary64.isRounding_mul`: what the
  operations give;
* `Binary64.add_eq_left`: what is not finite stays as it is when something finite is added;
* `Binary64.isRounding_ofInt`: whole numbers as floats.
-/

namespace TurtleGraphics.Binary64

open Float.Model UnpackedFloat

/-! ## Numbers out of range -/

theorem clamp_le_clamp {p q : ℚ} (h : p ≤ q) : clamp p ≤ clamp q :=
  max_le_max_left _ (min_le_min_right _ h)

theorem clamp_of_abs_le {q : ℚ} (h : |q| ≤ bound) : clamp q = q := by
  rw [abs_le] at h
  rw [clamp, min_eq_left h.2, max_eq_right h.1]

theorem abs_clamp_le (q : ℚ) : |clamp q| ≤ |q| := by
  have hbound := bound_pos
  rw [clamp, abs_le]
  constructor
  · exact (le_min (neg_abs_le q) (by linarith [abs_nonneg q])).trans (le_max_right _ _)
  · exact max_le (by linarith [abs_nonneg q]) ((min_le_left _ _).trans (le_abs_self q))

/-- Whether the float is what the number is rounded to. -/
structure IsRounding (q : ℚ) (x : Float) : Prop where
  isNaN_eq_false : x.isNaN = false
  exists_isNearest : ∃ v, IsNearest q v ∧ value x = clamp v

namespace IsRounding

variable {q w : ℚ} {x : Float}

theorem of_isRounded {u : UnpackedFloat} (h : IsRounded u) (hq : IsNearest q (toRat u))
    (hx : x.toModel.unpack = stored u) : IsRounding q x where
  isNaN_eq_false := by
    rw [isNaN_eq_false_iff, hx]
    exact h.toRat_stored.1
  exists_isNearest := ⟨toRat u, hq, by rw [value, hx, h.toRat_stored.2]⟩

/-- Rounding never steps over a float from below. -/
theorem value_le (h : IsRounding q x) (hw : IsRepresentable w) (hbound : |w| ≤ bound)
    (hle : q ≤ w) : value x ≤ w := by
  obtain ⟨v, hv, hx⟩ := h.exists_isNearest
  rw [hx, ← clamp_of_abs_le hbound]
  exact clamp_le_clamp (hv.le_of_le hw hle)

/-- Rounding never steps over a float from above. -/
theorem le_value (h : IsRounding q x) (hw : IsRepresentable w) (hbound : |w| ≤ bound)
    (hle : w ≤ q) : w ≤ value x := by
  obtain ⟨v, hv, hx⟩ := h.exists_isNearest
  rw [hx, ← clamp_of_abs_le hbound]
  exact clamp_le_clamp (hv.ge_of_ge hw hle)

theorem value_eq (h : IsRounding q x) (hq : IsRepresentable q) (hbound : |q| ≤ bound) :
    value x = q :=
  le_antisymm (h.value_le hq hbound le_rfl) (h.le_value hq hbound le_rfl)

theorem abs_value_le (h : IsRounding q x) (hw : IsRepresentable w) (hle : |q| ≤ w) :
    |value x| ≤ w := by
  obtain ⟨v, hv, hx⟩ := h.exists_isNearest
  rw [hx]
  exact (abs_clamp_le v).trans (hv.abs_le_of_abs_le hw hle)

theorem nonneg (h : IsRounding q x) (hq : 0 ≤ q) : 0 ≤ value x :=
  h.le_value .zero (by rw [abs_zero]; exact bound_pos.le) hq

theorem abs_value_le_two_mul (h : IsRounding q x) : |value x| ≤ 2 * |q| := by
  obtain ⟨v, hv, hx⟩ := h.exists_isNearest
  rw [hx]
  exact (abs_clamp_le v).trans hv.abs_le_two_mul

theorem isFinite (h : IsRounding q x) (hlt : |value x| < bound) : x.isFinite = true :=
  isFinite_iff.2 ⟨h.isNaN_eq_false, hlt⟩

end IsRounding

/-! ## Signs -/

theorem value_neg (x : Float) : value (-x) = -value x := by
  rw [value, value, unpack_toModel_neg]
  cases x.toModel.unpack with
  | notANumber | zero s => exact neg_zero.symm
  | infinity s | finite s m e hm =>
    cases s with
    | positive => rfl
    | negative => exact (Rat.neg_neg _).symm

theorem isNaN_neg (x : Float) : (-x).isNaN = x.isNaN := by
  change (-x).toModel.unpack.isNaN = x.toModel.unpack.isNaN
  rw [unpack_toModel_neg]
  cases x.toModel.unpack with
  | notANumber | zero s | infinity s | finite s m e hm => rfl

theorem isFinite_neg (x : Float) : (-x).isFinite = x.isFinite := by
  rw [Bool.eq_iff_iff, isFinite_iff, isFinite_iff, isNaN_neg, value_neg, abs_neg]

theorem unpack_toModel_abs (x : Float) : x.abs.toModel.unpack = x.toModel.unpack.abs := by
  change stored x.toModel.unpack.abs = _
  have hx := isStored x
  cases hu : x.toModel.unpack with
  | notANumber => exact stored_notANumber
  | zero s => exact stored_zero _
  | infinity s => exact stored_infinity _
  | finite s m e hm =>
    rw [hu] at hx
    cases hx with
    | finite h he => exact stored_finite_of_le h he

theorem value_abs (x : Float) : value x.abs = |value x| := by
  rw [value, value, unpack_toModel_abs]
  have hx := isStored x
  cases hu : x.toModel.unpack with
  | notANumber | zero s => exact abs_zero.symm
  | infinity s =>
    rw [toRat, abs_signed, abs_of_pos bound_pos]
    rfl
  | finite s m e hm =>
    rw [hu] at hx
    rw [toRat, abs_signed, abs_of_pos hx.magnitude_bounds.1]
    rfl

theorem isNaN_abs (x : Float) : x.abs.isNaN = x.isNaN := by
  change x.abs.toModel.unpack.isNaN = x.toModel.unpack.isNaN
  rw [unpack_toModel_abs]
  cases x.toModel.unpack with
  | notANumber | zero s | infinity s | finite s m e hm => rfl

theorem isFinite_abs (x : Float) : x.abs.isFinite = x.isFinite := by
  rw [Bool.eq_iff_iff, isFinite_iff, isFinite_iff, isNaN_abs, value_abs, abs_abs]

/-! ## Sums -/

/-- A mantissa is moved to a smaller exponent without a loss. -/
theorem apply_shiftLeft_mul (s : Sign) (m : Nat) {e t : ℤ} (h : t ≤ e) :
    ((s.apply (m <<< (e - t).toNat : Nat) : ℤ) : ℚ) * 2 ^ t = signed s (m * 2 ^ e) := by
  have hm : ((m <<< (e - t).toNat : Nat) : ℚ) * 2 ^ t = m * 2 ^ e := by
    rw [Nat.shiftLeft_eq, Nat.cast_mul, Nat.cast_pow, Nat.cast_ofNat, mul_assoc, ← zpow_natCast,
      ← zpow_add₀ two_ne_zero]
    congr 2
    omega
  cases s with
  | positive => exact hm
  | negative =>
    rw [Sign.apply, Int.cast_neg, neg_mul]
    exact congrArg Neg.neg hm

theorem isNearest_add {u v : UnpackedFloat} (hu : IsRounded u) (hv : IsRounded v) :
    IsRounded (UnpackedFloat.add .binary64 u v) ∧
      IsNearest (toRat u + toRat v) (toRat (UnpackedFloat.add .binary64 u v)) := by
  have hu' := hu.isRepresentable
  have hv' := hv.isRepresentable
  cases hu with
  | zero s =>
    rw [show toRat (.zero s) = 0 from rfl, zero_add]
    cases hv with
    | zero s' =>
      cases s <;> cases s'
      all_goals exact ⟨.zero _, .refl .zero⟩
    | finite hv => exact ⟨.finite hv, .refl hv'⟩
  | @finite s m e hm hu =>
    cases hv with
    | zero s' =>
      rw [show toRat (.zero s') = 0 from rfl, add_zero]
      exact ⟨.finite hu, .refl hu'⟩
    | @finite s' m' e' hm' hv =>
      have hsum : toRat (.finite s m e hm) + toRat (.finite s' m' e' hm') =
          ((s.apply (m <<< (e - min e e').toNat : Nat) +
            s'.apply (m' <<< (e' - min e e').toNat : Nat) : ℤ) : ℚ) * 2 ^ min e e' := by
        rw [Int.cast_add, add_mul, apply_shiftLeft_mul s m (min_le_left e e'),
          apply_shiftLeft_mul s' m' (min_le_right e e')]
        rfl
      rw [hsum]
      exact isNearest_normalize _ _

/-- A sum of finite floats is what the exact sum is rounded to. -/
theorem isRounding_add {x y : Float} (hx : x.isFinite = true) (hy : y.isFinite = true) :
    IsRounding (value x + value y) (x + y) := by
  obtain ⟨hrounded, hnearest⟩ :=
    isNearest_add (isRounded_of_isFinite hx) (isRounded_of_isFinite hy)
  exact .of_isRounded hrounded hnearest rfl

/-- What is not finite stays as it is when something finite is added. -/
theorem add_eq_left {x y : Float} (hx : ¬x.isFinite = true) (hy : y.isFinite = true) :
    x + y = x := by
  have hy' := isRounded_of_isFinite hy
  have hadd : UnpackedFloat.add .binary64 x.toModel.unpack y.toModel.unpack = x.toModel.unpack := by
    change ¬x.toModel.unpack.isFinite = true at hx
    cases hu : x.toModel.unpack with
    | notANumber => rfl
    | infinity s =>
      cases hv : y.toModel.unpack with
      | notANumber | infinity s' =>
        rw [hv] at hy'
        cases hy'
      | zero s' | finite s' m' e' hm' => rfl
    | zero s | finite s m e hm =>
      rw [hu] at hx
      exact absurd rfl hx
  calc x + y
      = .ofModel (.pack (UnpackedFloat.add .binary64 x.toModel.unpack y.toModel.unpack)) := rfl
    _ = .ofModel (.pack x.toModel.unpack) := by rw [hadd]
    _ = x := ofModel_pack_unpack x

/-- What is not finite never becomes finite again. -/
theorem not_isFinite_add {x : Float} (hx : ¬x.isFinite = true) (y : Float) :
    ¬(x + y).isFinite = true := by
  change ¬x.toModel.unpack.isFinite = true at hx
  change ¬(stored (UnpackedFloat.add .binary64 x.toModel.unpack y.toModel.unpack)).isFinite = true
  cases hu : x.toModel.unpack with
  | notANumber =>
    change ¬(stored .notANumber).isFinite = true
    rw [stored_notANumber]
    nofun
  | infinity s =>
    have hinfinity : ¬(stored (.infinity s)).isFinite = true := by
      rw [stored_infinity]
      nofun
    have hnan : ¬(stored .notANumber).isFinite = true := by
      rw [stored_notANumber]
      nofun
    cases y.toModel.unpack with
    | notANumber => exact hnan
    | zero s' | finite s' m' e' hm' => exact hinfinity
    | infinity s' =>
      rw [UnpackedFloat.add]
      split
      · exact hinfinity
      · exact hnan
  | zero s | finite s m e hm =>
    rw [hu] at hx
    exact absurd rfl hx

theorem isNaN_add_eq_false {x y : Float} (hx : x.isNaN = false) (hy : y.isFinite = true) :
    (x + y).isNaN = false := by
  by_cases hfinite : x.isFinite = true
  · exact (isRounding_add hfinite hy).isNaN_eq_false
  · rwa [add_eq_left hfinite hy]

theorem sub_eq_add_neg_unpacked (u v : UnpackedFloat) :
    UnpackedFloat.sub .binary64 u v = UnpackedFloat.add .binary64 u v.neg := by
  cases u with
  | notANumber => rfl
  | infinity s | zero s => cases v with
    | notANumber | infinity s' | zero s' | finite s' m' e' hm' => rfl
  | finite s m e hm => cases v with
    | notANumber | infinity s' | zero s' => rfl
    | finite s' m' e' hm' =>
      cases s' with
      | positive => rfl
      | negative =>
        refine congrArg (UnpackedFloat.normalize .binary64 · _ .positive) ?_
        exact Int.sub_neg _ _

/-- A difference is a sum. -/
theorem sub_eq_add_neg (x y : Float) : x - y = x + -y := by
  have hsub : UnpackedFloat.sub .binary64 x.toModel.unpack y.toModel.unpack =
      UnpackedFloat.add .binary64 x.toModel.unpack (-y).toModel.unpack := by
    rw [unpack_toModel_neg, sub_eq_add_neg_unpacked]
  exact congrArg (fun u ↦ Float.ofModel (.pack u)) hsub

theorem isRounding_sub {x y : Float} (hx : x.isFinite = true) (hy : y.isFinite = true) :
    IsRounding (value x - value y) (x - y) := by
  have hadd := isRounding_add hx ((isFinite_neg y).trans hy)
  rwa [value_neg, ← sub_eq_add_neg, ← Rat.sub_eq_add_neg] at hadd

/-! ## Products -/

theorem signed_mul_signed (s s' : Sign) (p q : ℚ) :
    signed s p * signed s' q = signed (s * s') (p * q) := by
  cases s with
  | positive => cases s' with
    | positive => rfl
    | negative => exact mul_neg p q
  | negative => cases s' with
    | positive => exact neg_mul p q
    | negative => exact neg_mul_neg p q

/-- A product is rounded to the nearest number, if it does not lack bits. -/
theorem isNearest_mul_finite {s s' : Sign} {m m' : Nat} {e e' : ℤ} (hm : 0 < m) (hm' : 0 < m')
    (h : e + e' ≤ -1074 ∨ 2 ^ 52 ≤ m * m') :
    IsRounded (UnpackedFloat.mul .binary64 (.finite s m e hm) (.finite s' m' e' hm')) ∧
      IsNearest (toRat (.finite s m e hm) * toRat (.finite s' m' e' hm'))
        (toRat (UnpackedFloat.mul .binary64 (.finite s m e hm) (.finite s' m' e' hm'))) := by
  have hprod : toRat (.finite s m e hm) * toRat (.finite s' m' e' hm') =
      signed (s * s') ((m * m' : Nat) * 2 ^ (e + e')) := by
    rw [toRat, toRat, signed_mul_signed, Nat.cast_mul, zpow_add₀ two_ne_zero, mul_mul_mul_comm]
  rw [hprod]
  exact isNearest_roundWithAccuracy (s * s') (Nat.mul_pos hm hm') h

theorem isNearest_mul {u v : UnpackedFloat} (hu : IsRounded u) (hv : IsRounded v) :
    IsRounded (UnpackedFloat.mul .binary64 u v) ∧
      IsNearest (toRat u * toRat v) (toRat (UnpackedFloat.mul .binary64 u v)) := by
  cases hu with
  | zero s =>
    rw [show toRat (.zero s) = 0 from rfl, zero_mul]
    cases hv with
    | zero s' | finite hv => exact ⟨.zero _, .refl .zero⟩
  | @finite s m e hm hu =>
    cases hv with
    | zero s' =>
      rw [show toRat (.zero s') = 0 from rfl, mul_zero]
      exact ⟨.zero _, .refl .zero⟩
    | @finite s' m' e' hm' hv =>
      refine isNearest_mul_finite hm hm' ?_
      -- A factor without a leading bit has the least exponent.
      obtain hle | hlt := le_or_gt (2 ^ 52) m
      · exact .inr (hle.trans (Nat.le_mul_of_pos_right m hm'))
      · obtain hle' | hlt' := le_or_gt (2 ^ 52) m'
        · exact .inr (hle'.trans (Nat.le_mul_of_pos_left m' hm))
        · have he : ¬-1074 < e := fun he ↦ hlt.not_ge (hu.le_mantissa he)
          have he' : ¬-1074 < e' := fun he' ↦ hlt'.not_ge (hv.le_mantissa he')
          omega

/-- A product of finite floats is what the exact product is rounded to. -/
theorem isRounding_mul {x y : Float} (hx : x.isFinite = true) (hy : y.isFinite = true) :
    IsRounding (value x * value y) (x * y) := by
  obtain ⟨hrounded, hnearest⟩ :=
    isNearest_mul (isRounded_of_isFinite hx) (isRounded_of_isFinite hy)
  exact .of_isRounded hrounded hnearest rfl

/-! ## Whole numbers -/

/-- The float one, as a power of ten. -/
def one : Float := Float.ofBits 0x3FF0000000000000

theorem unpack_one : one.toModel.unpack = .finite .positive (2 ^ 52) (-52) (by decide) := rfl

theorem value_one : value one = 1 := by
  rw [value, unpack_one, toRat, signed, Nat.cast_pow, Nat.cast_ofNat, zpow_neg]
  exact mul_inv_cancel₀ (by positivity)

/-- A whole number of a machine word is turned into the nearest float. -/
theorem isRounding_toFloat (n : UInt64) : IsRounding n.toNat n.toFloat := by
  have hnormalize := isNearest_normalize n.toNat 0
  rw [zpow_zero, mul_one] at hnormalize
  exact .of_isRounded hnormalize.1 hnormalize.2 rfl

theorem two_pow_lt_bound : (2 ^ 53 : ℚ) < bound := by
  have hone : (1 : ℚ) < 2 ^ (971 : ℤ) := one_lt_zpow₀ one_lt_two (by decide)
  exact lt_mul_of_one_lt_right (by positivity) hone

theorem isRepresentable_two_pow : IsRepresentable (2 ^ 53) :=
  ⟨2 ^ 53, 0, by decide, by decide, by rw [zpow_zero, mul_one, Int.cast_pow, Int.cast_ofNat]⟩

theorem abs_intCast_lt_bound {n : ℤ} (h : |n| ≤ 2 ^ 53) : |(n : ℚ)| < bound := by
  have hn : |(n : ℚ)| ≤ 2 ^ 53 := by exact_mod_cast h
  exact hn.trans_lt two_pow_lt_bound

/-- A number that takes up 53 bits, `k` of them after the point, becomes a float that is off by a
unit of the last of them at most. -/
theorem IsRounding.abs_value_sub_le {q : ℚ} {x : Float} (h : IsRounding q x) {k : ℕ}
    (hk : k ≤ 1074) (hq : |q| * 2 ^ k < 2 ^ 53) : |value x - q| ≤ 1 / 2 ^ k := by
  obtain ⟨v, hv, hx⟩ := h.exists_isNearest
  have hq' : |q| ≤ 2 ^ 53 :=
    (le_mul_of_one_le_right (abs_nonneg q) (one_le_pow₀ one_le_two)).trans hq.le
  have hv' := (hv.abs_le_of_abs_le isRepresentable_two_pow hq').trans_lt two_pow_lt_bound
  rw [hx, clamp_of_abs_lt hv']
  exact hv.abs_sub_le_of_lt hk hq

/-- The float that a long numeral is turned into is a product with one. -/
theorem ofScientific_eq {n : Nat} (hn : 0 < n) :
    UnpackedFloat.ofScientific .binary64 n 0 = UnpackedFloat.mul .binary64
      (.finite .positive (n <<< 53) (-53) (by rw [Nat.shiftLeft_eq]; positivity))
      (.finite .positive 1 0 Nat.one_pos) := by
  have hbits : (2 : ℤ) ^ Format.binary64.exponentBits = 2048 := rfl
  rw [UnpackedFloat.ofScientific, dif_neg hn.ne', hbits, if_neg (by decide), if_neg (by omega),
    if_pos (by decide)]
  rfl

/-- A whole number is turned into the nearest float. -/
theorem isRounding_ofNat (n : Nat) : IsRounding n (Float.ofNat n) := by
  by_cases hn : n < 2 ^ 53
  · have hfast : Float.ofNat n = n.toUInt64.toFloat * one := dif_pos ⟨hn, by decide⟩
    have htoNat : n.toUInt64.toNat = n := Nat.mod_eq_of_lt (hn.trans (by decide))
    have hrounding := isRounding_toFloat n.toUInt64
    rw [htoNat] at hrounding
    have hn' : |(n : ℤ)| ≤ 2 ^ 53 := by
      rw [Nat.abs_cast]
      omega
    have hvalue := hrounding.value_eq (.intCast hn') (abs_intCast_lt_bound hn').le
    have hfinite := hrounding.isFinite (hvalue ▸ abs_intCast_lt_bound hn')
    have hmul := isRounding_mul hfinite (show one.isFinite = true from rfl)
    rwa [hvalue, value_one, mul_one, ← hfast] at hmul
  · have hslow : Float.ofNat n = .ofModel (.ofScientific n 0) := dif_neg fun h ↦ hn h.1
    have hpos : 0 < n := by omega
    have hmodel : (Float.ofModel (.ofScientific n 0)).toModel.unpack =
      stored (UnpackedFloat.ofScientific .binary64 n 0) := rfl
    rw [ofScientific_eq hpos, ← hslow] at hmodel
    obtain ⟨hrounded, hnearest⟩ := @isNearest_mul_finite .positive .positive _ _ (-53) 0
      (show 0 < n <<< 53 by rw [Nat.shiftLeft_eq]; positivity) Nat.one_pos
      (.inr (by rw [Nat.shiftLeft_eq]; omega))
    have hn' : toRat (.finite .positive (n <<< 53) (-53) (by rw [Nat.shiftLeft_eq]; positivity)) *
        toRat (.finite .positive 1 0 Nat.one_pos) = n := by
      rw [toRat, toRat, signed, signed, Nat.shiftLeft_eq, Nat.cast_mul, Nat.cast_pow,
        Nat.cast_ofNat, zpow_neg, Nat.cast_one, one_mul, zpow_zero, mul_one]
      exact mul_inv_cancel_right₀ (by positivity) _
    rw [hn'] at hnearest
    exact .of_isRounded hrounded hnearest hmodel

/-- A whole number of 53 bits is turned into the float that stands for it. -/
theorem value_ofNat {n : Nat} (h : n ≤ 2 ^ 53) : value (Float.ofNat n) = n := by
  have hn : |(n : ℤ)| ≤ 2 ^ 53 := by
    rw [Nat.abs_cast]
    omega
  exact (isRounding_ofNat n).value_eq (.intCast hn) (abs_intCast_lt_bound hn).le

theorem value_zero : value 0 = 0 := (value_ofNat (n := 0) (by decide)).trans Nat.cast_zero

theorem zero_le_iff {x : Float} (h : x.isNaN = false) : 0 ≤ x ↔ 0 ≤ value x := by
  rw [le_iff_value_le rfl h, value_zero]

theorem IsRounding.neg {q : ℚ} {x : Float} (h : IsRounding q x) : IsRounding (-q) (-x) where
  isNaN_eq_false := (isNaN_neg x).trans h.isNaN_eq_false
  exists_isNearest := by
    obtain ⟨v, hv, hx⟩ := h.exists_isNearest
    exact ⟨-v, hv.neg, by rw [value_neg, hx]; exact (clamp_signed .negative v).symm⟩

theorem IsRounding.abs {q : ℚ} {x : Float} (h : IsRounding q x) : IsRounding |q| x.abs := by
  -- Both signs come down to a number that is not negative.
  have hnonneg {p : ℚ} {y : Float} (hp : 0 ≤ p) (hy : IsRounding p y)
      (hvalue : value x.abs = |value y|) : IsRounding p x.abs := by
    obtain ⟨v, hv, hyv⟩ := hy.exists_isNearest
    refine ⟨(isNaN_abs x).trans h.isNaN_eq_false, v, hv, ?_⟩
    rw [hvalue, abs_of_nonneg (hy.nonneg hp), hyv]
  obtain hq | hq := le_total 0 q
  · rw [abs_of_nonneg hq]
    exact hnonneg hq h (value_abs x)
  · rw [abs_of_nonpos hq]
    exact hnonneg (neg_nonneg.2 hq) h.neg (by rw [value_abs, value_neg, abs_neg])

theorem isRounding_ofInt (n : ℤ) : IsRounding n (Float.ofInt n) := by
  cases n with
  | ofNat n => exact isRounding_ofNat n
  | negSucc n =>
    rw [Int.cast_negSucc]
    exact (isRounding_ofNat (n + 1)).neg

theorem value_ofInt {n : ℤ} (h : |n| ≤ 2 ^ 53) : value (Float.ofInt n) = n :=
  (isRounding_ofInt n).value_eq (.intCast h) (abs_intCast_lt_bound h).le

end TurtleGraphics.Binary64
