import TurtleGraphics.Proofs.Binary64.Rounding

/-!
# Canonical floats

A float stands for a rational number; the infinite ones stand for the least power of two that is too
large for a finite float, on either side. What rounding gives is a zero or a float in canonical
form, and the number it stands for is the nearest one. Main statements:

* `Binary64.isNearest_roundWithAccuracy`, `Binary64.isNearest_round`: to round is to find the
  nearest number;
* `Binary64.isNearest_normalize`: the same of a mantissa with a sign.
-/

namespace TurtleGraphics.Binary64

open Float.Model UnpackedFloat

/-! ## Canonical floats -/

/-- Whether a mantissa and an exponent are those of a float, but for how large the exponent is. -/
structure IsCanonical (m : Nat) (e : ℤ) : Prop where
  mantissa_lt : m < 2 ^ 53
  least_le : -1074 ≤ e
  /-- The leading bit is set, unless the exponent is the least. -/
  le_mantissa : -1074 < e → 2 ^ 52 ≤ m

/-- How many bits of a mantissa do not fit. -/
def excess (m : Nat) (e : ℤ) : Nat := (max (m.log2 + 1 + e - 53) (-1074) - e).toNat

/-- What is left of a mantissa after the bits that do not fit has 53 bits, if it had that many. -/
theorem excess_bounds {m : Nat} (hm : 0 < m) {e : ℤ} (h : e ≤ -1074 ∨ 2 ^ 52 ≤ m) :
    -1074 ≤ e + excess m e ∧ m < 2 ^ 53 * 2 ^ excess m e ∧
      (-1074 < e + excess m e → 2 ^ 52 * 2 ^ excess m e ≤ m) := by
  have hlow := Nat.log2_self_le hm.ne'
  have hhigh := @Nat.lt_log2_self m
  have hlog : e ≤ -1074 ∨ 52 ≤ m.log2 := h.imp_right (Nat.le_log2 hm.ne').2
  refine ⟨by unfold excess; omega, ?_, fun hnormal ↦ ?_⟩
  · rw [← pow_add]
    exact hhigh.trans_le (Nat.pow_le_pow_right (by decide) (by unfold excess; omega))
  · rw [← pow_add]
    exact (Nat.pow_le_pow_right (by decide) (by unfold excess at *; omega)).trans hlow

/-- A rounded mantissa has a bit in excess only if it was rounded up to a power of two. -/
theorem excess_eq {m : Nat} (hm : m ≤ 2 ^ 53) {e : ℤ} (he : -1074 ≤ e) :
    m < 2 ^ 53 ∧ excess m e = 0 ∨ m = 2 ^ 53 ∧ excess m e = 1 := by
  obtain hlt | rfl := hm.lt_or_eq
  · left
    refine ⟨hlt, ?_⟩
    have hlog : m.log2 ≤ 52 := by
      obtain rfl | hpos := Nat.eq_zero_or_pos m
      · decide
      · exact Nat.le_of_lt_succ ((Nat.log2_lt hpos.ne').2 hlt)
    unfold excess
    omega
  · right
    refine ⟨rfl, ?_⟩
    unfold excess
    rw [Nat.log2_two_pow]
    omega

/-! ## Values -/

/-- The least power of two that is too large for a float. -/
def bound : ℚ := 2 ^ 53 * 2 ^ (971 : ℤ)

theorem bound_pos : 0 < bound := mul_pos (by positivity) (by positivity)

theorem isRepresentable_bound : IsRepresentable bound :=
  ⟨2 ^ 53, 971, by decide, by decide, by rw [bound, Int.cast_pow, Int.cast_ofNat]⟩

/-- The number with the sign. -/
def signed : Sign → ℚ → ℚ
  | .positive, q => q
  | .negative, q => -q

/-- The number that the float stands for. -/
def toRat : UnpackedFloat → ℚ
  | .infinity s => signed s bound
  | .notANumber => 0
  | .zero _ => 0
  | .finite s m e _ => signed s (m * 2 ^ e)

theorem signed_zero (s : Sign) : signed s 0 = 0 := by
  cases s with
  | positive => rfl
  | negative => exact neg_zero

theorem abs_signed (s : Sign) (q : ℚ) : |signed s q| = |q| := by
  cases s with
  | positive => rfl
  | negative => exact abs_neg q

theorem IsNearest.signed {q v : ℚ} (h : IsNearest q v) (s : Sign) :
    IsNearest (signed s q) (signed s v) := by
  cases s with
  | positive => exact h
  | negative => exact h.neg

/-! ## Rounding -/

/-- The finite float with the given parts, or a zero. -/
def ofParts (s : Sign) (m : Nat) (e : ℤ) : UnpackedFloat :=
  if h : m = 0 then .zero s else .finite s m e (Nat.pos_of_ne_zero h)

theorem toRat_ofParts (s : Sign) (m : Nat) (e : ℤ) :
    toRat (ofParts s m e) = signed s (m * 2 ^ e) := by
  unfold ofParts
  split
  · rename_i hm
    rw [hm, Nat.cast_zero, zero_mul, signed_zero]
    rfl
  · rfl

/-- Whether the float is a zero or a canonical one. -/
inductive IsRounded : UnpackedFloat → Prop
  | zero (s : Sign) : IsRounded (.zero s)
  | finite {s : Sign} {m : Nat} {e : ℤ} {hm : 0 < m} (h : IsCanonical m e) :
    IsRounded (.finite s m e hm)

theorem IsCanonical.isRounded {m : Nat} {e : ℤ} (h : IsCanonical m e) (s : Sign) :
    IsRounded (ofParts s m e) := by
  unfold ofParts
  split
  · exact .zero s
  · exact .finite h

theorem IsRepresentable.signed {q : ℚ} (h : IsRepresentable q) (s : Sign) :
    IsRepresentable (signed s q) := by
  cases s with
  | positive => exact h
  | negative => exact h.neg

theorem IsRounded.isRepresentable {u : UnpackedFloat} (h : IsRounded u) :
    IsRepresentable (toRat u) := by
  cases h with
  | zero s => exact .zero
  | @finite s m e hm h =>
    have hlt := h.mantissa_lt
    exact IsRepresentable.signed ⟨m, e, by rw [Nat.abs_cast]; omega, h.least_le, rfl⟩ s

theorem roundWithAccuracy_eq (s : Sign) (m : Nat) (e : ℤ) :
    roundWithAccuracy .binary64 s m e .exact =
      let r := (shifted m (excess m e)).roundedMantissa
      let t := e + excess m e
      ofParts s (r / 2 ^ excess r t) (t + excess r t) := by
  simp only [← mantissa_shifted]
  rfl

/-- A mantissa that was rounded up to a power of two gives up its last bit, which is zero. -/
theorem isRounded_ofParts_excess (s : Sign) {r : Nat} {t : ℤ} (hr : r ≤ 2 ^ 53) (ht : -1074 ≤ t)
    (hnormal : -1074 < t → 2 ^ 52 ≤ r) :
    IsRounded (ofParts s (r / 2 ^ excess r t) (t + excess r t)) ∧
      toRat (ofParts s (r / 2 ^ excess r t) (t + excess r t)) = signed s (r * 2 ^ t) := by
  rw [toRat_ofParts]
  obtain ⟨hlt, hzero⟩ | ⟨rfl, hone⟩ := excess_eq hr ht
  · rw [hzero, pow_zero, Nat.div_one, Nat.cast_zero, add_zero]
    exact ⟨IsCanonical.isRounded ⟨hlt, ht, hnormal⟩ s, rfl⟩
  · rw [hone]
    refine ⟨IsCanonical.isRounded ⟨by decide, by omega, fun _ ↦ by decide⟩ s,
      congrArg (signed s) ?_⟩
    rw [Nat.cast_one, zpow_add_one₀ two_ne_zero]
    norm_num
    ring

/-- To round a mantissa that is not too coarse is to find the nearest number. -/
theorem isNearest_roundWithAccuracy (s : Sign) {m : Nat} (hm : 0 < m) {e : ℤ}
    (h : e ≤ -1074 ∨ 2 ^ 52 ≤ m) :
    IsRounded (roundWithAccuracy .binary64 s m e .exact) ∧
      IsNearest (signed s (m * 2 ^ e))
        (toRat (roundWithAccuracy .binary64 s m e .exact)) := by
  obtain ⟨hleast, hhigh, hlow⟩ := excess_bounds hm h
  have hdiv : m / 2 ^ excess m e < 2 ^ 53 := (Nat.div_lt_iff_lt_mul (Nat.two_pow_pos _)).2 hhigh
  have hle := (roundedMantissa_shifted_cases m (excess m e)).imp And.left And.left
  obtain ⟨hrounded, hvalue⟩ := isRounded_ofParts_excess s
    (show (shifted m (excess m e)).roundedMantissa ≤ 2 ^ 53 by omega) hleast fun hnormal ↦ by
      have := (Nat.le_div_iff_mul_le (Nat.two_pow_pos _)).2 (hlow hnormal)
      omega
  rw [roundWithAccuracy_eq]
  dsimp only
  rw [hvalue]
  exact ⟨hrounded, (isNearest_roundedMantissa hleast hhigh hlow).signed s⟩

/-- To round is to find the nearest number. -/
theorem isNearest_round (s : Sign) {m : Nat} (hm : 0 < m) (e : ℤ) :
    IsRounded (UnpackedFloat.round .binary64 s m e) ∧
      IsNearest (signed s (m * 2 ^ e)) (toRat (UnpackedFloat.round .binary64 s m e)) := by
  -- The mantissa is made finer first, so that no bit it could have is missing.
  obtain ⟨k, hk⟩ : ∃ k : Nat, k = (e - max (m.log2 + 1 + e - 53) (-1074)).toNat := ⟨_, rfl⟩
  have hround : UnpackedFloat.round .binary64 s m e =
      roundWithAccuracy .binary64 s (m * 2 ^ k) (e - k) .exact := by
    rw [hk, ← Nat.shiftLeft_eq]
    rfl
  have hvalue : (m * 2 ^ e : ℚ) = (m * 2 ^ k : Nat) * 2 ^ (e - k) := by
    rw [Nat.cast_mul, Nat.cast_pow, Nat.cast_ofNat, mul_assoc, ← zpow_natCast,
      ← zpow_add₀ two_ne_zero, add_sub_cancel]
  have hfine : e - k ≤ -1074 ∨ 2 ^ 52 ≤ m * 2 ^ k := by
    obtain hle | hlt := le_or_gt (m.log2 + 1 + e - 53) (-1074)
    · left
      omega
    · right
      calc 2 ^ 52 ≤ 2 ^ m.log2 * 2 ^ k := by
            rw [← pow_add]
            exact Nat.pow_le_pow_right (by decide) (by omega)
        _ ≤ m * 2 ^ k := Nat.mul_le_mul_right _ (Nat.log2_self_le hm.ne')
  rw [hround, hvalue]
  exact isNearest_roundWithAccuracy s (Nat.mul_pos hm (Nat.two_pow_pos k)) hfine

theorem isNearest_normalize (m e : ℤ) :
    IsRounded (UnpackedFloat.normalize .binary64 m e .positive) ∧
      IsNearest (m * 2 ^ e) (toRat (UnpackedFloat.normalize .binary64 m e .positive)) := by
  unfold UnpackedFloat.normalize
  split
  · rename_i hlt
    rw [Int.compare_eq_lt] at hlt
    have hround := isNearest_round .negative (m := (-m).toNat) (by omega) e
    have hm : ((-m).toNat : ℚ) = -m := by
      exact_mod_cast Int.toNat_of_nonneg (by omega : 0 ≤ -m)
    rwa [signed, hm, neg_mul, Rat.neg_neg] at hround
  · rename_i heq
    rw [Int.compare_eq_eq] at heq
    rw [heq, Int.cast_zero, zero_mul]
    exact ⟨.zero _, .refl .zero⟩
  · rename_i hgt
    rw [Int.compare_eq_gt] at hgt
    have hround := isNearest_round .positive (m := m.toNat) (by omega) e
    have hm : (m.toNat : ℚ) = m := by
      exact_mod_cast Int.toNat_of_nonneg (by omega : 0 ≤ m)
    rwa [signed, hm] at hround

end TurtleGraphics.Binary64
