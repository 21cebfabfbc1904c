import TurtleGraphics.Proofs.Binary64.Canonical

/-!
# The numbers floats stand for

What is too large for a float becomes infinite when it is stored, and everything else stays as it
is. The order of floats is the order of the numbers they stand for, with the infinite ones at the
bounds, so that what is said about the values of floats is said about the floats. Main statements:

* `Binary64.IsRounded.toRat_stored`: what storing does to a number;
* `Binary64.le_iff_value_le`, `Binary64.beq_iff_value_eq`: floats are compared as numbers;
* `Binary64.isFinite_iff`: the finite floats are those within the bounds;
* `Binary64.eq_of_value_eq`: a float is known by the number it stands for, but for a zero.
-/

namespace TurtleGraphics.Binary64

open Float.Model UnpackedFloat

/-! ## Storing -/

/-- What the float is after it has been stored. -/
def stored (u : UnpackedFloat) : UnpackedFloat :=
  UnpackedFloat.unpack .binary64 (UnpackedFloat.pack .binary64 u)

theorem biasedExponent_eq (e : ℤ) : (e + (Format.binary64.exponentBias : ℤ) +
    (Format.binary64.mantissaBitsWithoutImplicit : ℤ)).toNat = (e + 1075).toNat := by
  have hbias : (Format.binary64.exponentBias : ℤ) = 1023 := rfl
  rw [hbias, add_assoc]
  rfl

theorem stored_infinity (s : Sign) : stored (.infinity s) = .infinity s := by
  cases s with
  | positive => rfl
  | negative => rfl

theorem stored_notANumber : stored .notANumber = .notANumber := unpack_packedNaN

theorem stored_zero (s : Sign) : stored (.zero s) = .zero s := unpack_packedZero

theorem stored_finite_of_lt {s : Sign} {m : Nat} {e : ℤ} {hm : 0 < m} (h : 971 < e) :
    stored (.finite s m e hm) = .infinity s := by
  rw [← stored_infinity]
  unfold stored UnpackedFloat.pack
  dsimp only
  rw [biasedExponent_eq, if_pos (show 2 ^ 11 ≤ (e + 1075).toNat + 1 by omega)]

theorem log2_eq_of_isCanonical {m : Nat} {e : ℤ} (h : IsCanonical m e) :
    m.log2 + 1 = Format.binary64.mantissaBits ↔ 2 ^ 52 ≤ m := by
  change m.log2 + 1 = 53 ↔ _
  have hlt := h.mantissa_lt
  constructor
  · intro hlog
    have hm : m ≠ 0 := by
      rintro rfl
      cases hlog
    exact (Nat.le_log2 hm).1 (by omega)
  · intro hle
    have hm : m ≠ 0 := by omega
    have hlow := (Nat.le_log2 hm).2 hle
    have hhigh := (Nat.log2_lt hm).2 hlt
    omega

/-- A float with a leading bit is stored without it. -/
theorem unpack_packComponents_normal (s : Sign) {E m : Nat} (hE : 0 < E) (hE' : E < 2047)
    (hlow : 2 ^ 52 ≤ m) (hhigh : m < 2 ^ 53) (hm : 0 < m) :
    UnpackedFloat.unpack .binary64
        (packComponents .binary64 s (BitVec.ofNat 11 E) (BitVec.ofNat 52 m)) =
      .finite s m (E - 1075) hm := by
  have htoNat : (BitVec.ofNat 11 E).toNat = E := Nat.mod_eq_of_lt (by omega)
  have hones : BitVec.ofNat 11 E ≠ -1#11 := fun h ↦ by
    have := congrArg BitVec.toNat h
    rw [htoNat] at this
    exact hE'.ne this
  have hzeros : BitVec.ofNat 11 E ≠ 0#11 := fun h ↦ by
    have := congrArg BitVec.toNat h
    rw [htoNat] at this
    exact hE.ne' this
  have hmantissa : (1#1 ++ BitVec.ofNat 52 m).toNat = m := by
    rw [BitVec.toNat_append, BitVec.toNat_ofNat, BitVec.toNat_ofNat,
      ← Nat.shiftLeft_add_eq_or_of_lt (Nat.mod_lt m (by decide)), Nat.shiftLeft_eq]
    omega
  simp only [UnpackedFloat.unpack, unpackExponent_packComponents, unpackMantissa_packComponents,
    unpackSign_packComponents, Sign.ofBitVec_toBitVec]
  rw [if_neg hones, if_neg hzeros]
  simp only [hmantissa, htoNat]
  rfl

theorem unpack_packComponents_subnormal (s : Sign) {m : Nat} (hlt : m < 2 ^ 52) (hm : 0 < m) :
    UnpackedFloat.unpack .binary64 (packComponents .binary64 s 0#11 (BitVec.ofNat 52 m)) =
      .finite s m (-1074) hm := by
  have htoNat : (BitVec.ofNat 52 m).toNat = m := Nat.mod_eq_of_lt hlt
  have hne : BitVec.ofNat 52 m ≠ 0#52 := fun h ↦ by
    have := congrArg BitVec.toNat h
    rw [htoNat] at this
    exact hm.ne' this
  simp only [UnpackedFloat.unpack, unpackExponent_packComponents, unpackMantissa_packComponents,
    unpackSign_packComponents, Sign.ofBitVec_toBitVec]
  rw [if_neg (by decide), if_pos trivial, dif_neg hne]
  simp only [htoNat]
  rfl

/-- A canonical float that is not too large is stored as it is. -/
theorem stored_finite_of_le {s : Sign} {m : Nat} {e : ℤ} {hm : 0 < m} (h : IsCanonical m e)
    (he : e ≤ 971) : stored (.finite s m e hm) = .finite s m e hm := by
  have hleast := h.least_le
  have hlt := h.mantissa_lt
  unfold stored UnpackedFloat.pack
  dsimp only
  rw [biasedExponent_eq, if_neg (show ¬2 ^ 11 ≤ (e + 1075).toNat + 1 by omega)]
  split
  · rename_i hlog
    have hle := (log2_eq_of_isCanonical h).1 hlog
    rw [unpack_packComponents_normal s (by omega) (by omega) hle hlt hm]
    congr 1
    omega
  · rename_i hlog
    have hsub : m < 2 ^ 52 := by
      by_contra hle
      exact hlog ((log2_eq_of_isCanonical h).2 (Nat.le_of_not_lt hle))
    have hleast' : e = -1074 := by
      by_contra hne
      have := h.le_mantissa (by omega)
      omega
    subst hleast'
    exact unpack_packComponents_subnormal s hsub hm

theorem IsCanonical.lt_bound_iff {m : Nat} {e : ℤ} (h : IsCanonical m e) :
    (m * 2 ^ e : ℚ) < bound ↔ e ≤ 971 := by
  constructor
  · intro hlt
    by_contra! he
    have hm : (2 ^ 52 : ℚ) ≤ m := by
      have hleast := h.le_mantissa (by omega)
      exact_mod_cast hleast
    have hle : bound ≤ m * 2 ^ e := by
      calc bound = 2 ^ 52 * 2 ^ (971 + 1 : ℤ) := by
            rw [bound, zpow_add_one₀ two_ne_zero, pow_succ]
            ring
        _ ≤ m * 2 ^ e := mul_le_mul hm (zpow_le_zpow_right₀ one_le_two (by omega))
            (by positivity) (by positivity)
    exact hlt.not_ge hle
  · intro he
    have hm : (m : ℚ) < 2 ^ 53 := by exact_mod_cast h.mantissa_lt
    calc (m * 2 ^ e : ℚ) < 2 ^ 53 * 2 ^ e := mul_lt_mul_of_pos_right hm (by positivity)
      _ ≤ bound :=
        mul_le_mul_of_nonneg_left (zpow_le_zpow_right₀ one_le_two he) (by positivity)

/-- A number that is too large becomes the bound it is beyond. -/
def clamp (q : ℚ) : ℚ := max (-bound) (min q bound)

theorem clamp_of_abs_lt {q : ℚ} (h : |q| < bound) : clamp q = q := by
  rw [abs_lt] at h
  rw [clamp, min_eq_left h.2.le, max_eq_right h.1.le]

theorem clamp_signed (s : Sign) (q : ℚ) : clamp (signed s q) = signed s (clamp q) := by
  have hbound := bound_pos
  cases s with
  | positive => rfl
  | negative =>
    simp only [clamp, signed, min_def, max_def]
    split_ifs
    all_goals linarith

/-- A number that is too large for a float is stored as infinite. -/
theorem IsRounded.toRat_stored {u : UnpackedFloat} (h : IsRounded u) :
    stored u ≠ .notANumber ∧ toRat (stored u) = clamp (toRat u) := by
  cases h with
  | zero s =>
    rw [stored_zero]
    refine ⟨nofun, (clamp_of_abs_lt ?_).symm⟩
    rw [toRat, abs_zero]
    exact bound_pos
  | @finite s m e hm h =>
    obtain he | he := le_or_gt e 971
    · rw [stored_finite_of_le h he]
      refine ⟨nofun, (clamp_of_abs_lt ?_).symm⟩
      rw [toRat, abs_signed, abs_of_nonneg (by positivity)]
      exact h.lt_bound_iff.2 he
    · rw [stored_finite_of_lt he]
      have hle : bound ≤ m * 2 ^ e := not_lt.1 fun hlt ↦ he.not_ge (h.lt_bound_iff.1 hlt)
      refine ⟨nofun, ?_⟩
      rw [toRat, toRat, clamp_signed, clamp, min_eq_right hle,
        max_eq_right (by linarith [bound_pos])]

/-- Whether the float is one that is stored as it is. -/
inductive IsStored : UnpackedFloat → Prop
  | infinity (s : Sign) : IsStored (.infinity s)
  | notANumber : IsStored .notANumber
  | zero (s : Sign) : IsStored (.zero s)
  | finite {s : Sign} {m : Nat} {e : ℤ} {hm : 0 < m} (h : IsCanonical m e) (he : e ≤ 971) :
    IsStored (.finite s m e hm)

theorem isStored_unpack (x : Float.Model) : IsStored x.unpack := by
  have hbias : (Format.binary64.exponentBias : ℤ) = 1023 := rfl
  simp only [Float.Model.unpack, UnpackedFloat.unpack, hbias]
  split
  · split
    · exact .infinity _
    · exact .notANumber
  · rename_i hones
    split
    · rename_i hzeros
      split
      · exact .zero _
      · rw [hzeros]
        exact .finite ⟨(BitVec.isLt _).trans (by decide), by decide, fun h ↦ absurd h (by decide)⟩
          (by decide)
    · rename_i hexponent
      have hpos := BitVec.toNat_pos_of_ne_zero hexponent
      have hlt : (@unpackExponent .binary64 x.toBits.toBitVec).toNat < 2047 :=
        BitVec.lt_allOnes_iff.2 hones
      refine .finite ⟨BitVec.isLt _, by omega, fun _ ↦ ?_⟩ (by omega)
      rw [BitVec.toNat_append]
      exact Nat.left_le_or

/-! ## Order -/

theorem IsCanonical.lt_of_exponent_lt {m m' : Nat} {e e' : ℤ} (h : IsCanonical m e)
    (h' : IsCanonical m' e') (he : e < e') : (m * 2 ^ e : ℚ) < m' * 2 ^ e' := by
  have hm : (m : ℚ) < 2 ^ 53 := by exact_mod_cast h.mantissa_lt
  have hm' : (2 ^ 52 : ℚ) ≤ m' := by exact_mod_cast h'.le_mantissa (h.least_le.trans_lt he)
  calc (m * 2 ^ e : ℚ) < 2 ^ 53 * 2 ^ e := mul_lt_mul_of_pos_right hm (by positivity)
    _ = 2 ^ 52 * 2 ^ (e + 1) := by
      rw [zpow_add_one₀ two_ne_zero]
      ring
    _ ≤ m' * 2 ^ e' := mul_le_mul hm' (zpow_le_zpow_right₀ one_le_two (by omega))
      (by positivity) (by positivity)

/-- Canonical floats are compared by their exponents first, and then by their mantissas. -/
theorem IsCanonical.compare_eq {m m' : Nat} {e e' : ℤ} (h : IsCanonical m e)
    (h' : IsCanonical m' e') :
    (compare e e').then (compare m m') = compare (m * 2 ^ e : ℚ) (m' * 2 ^ e') := by
  obtain he | rfl | he := lt_trichotomy e e'
  · rw [compare_lt_iff_lt.2 he, compare_lt_iff_lt.2 (h.lt_of_exponent_lt h' he)]
    rfl
  · have hpos : (0 : ℚ) < 2 ^ e := by positivity
    rw [compare_eq_iff_eq.2 rfl]
    obtain hm | rfl | hm := lt_trichotomy m m'
    · have hlt : (m * 2 ^ e : ℚ) < m' * 2 ^ e :=
        mul_lt_mul_of_pos_right (Nat.cast_lt.2 hm) hpos
      rw [compare_lt_iff_lt.2 hm, compare_lt_iff_lt.2 hlt]
      rfl
    · rw [compare_eq_iff_eq.2 rfl, compare_eq_iff_eq.2 rfl]
      rfl
    · have hlt : (m' * 2 ^ e : ℚ) < m * 2 ^ e :=
        mul_lt_mul_of_pos_right (Nat.cast_lt.2 hm) hpos
      rw [compare_gt_iff_gt.2 hm, compare_gt_iff_gt.2 hlt]
      rfl
  · rw [compare_gt_iff_gt.2 he, compare_gt_iff_gt.2 (h'.lt_of_exponent_lt h he)]
    rfl

theorem compare_neg_neg (p q : ℚ) : compare (-p) (-q) = (compare p q).swap := by
  obtain h | rfl | h := lt_trichotomy p q
  · rw [compare_lt_iff_lt.2 h, compare_gt_iff_gt.2 (neg_lt_neg h)]
    rfl
  · rw [compare_eq_iff_eq.2 rfl, compare_eq_iff_eq.2 rfl]
    rfl
  · rw [compare_gt_iff_gt.2 h, compare_lt_iff_lt.2 (neg_lt_neg h)]
    rfl

/-- A finite float is on its side of zero, and nearer to it than the infinite one is. -/
theorem IsStored.magnitude_bounds {s : Sign} {m : Nat} {e : ℤ} {hm : 0 < m}
    (h : IsStored (.finite s m e hm)) : 0 < (m * 2 ^ e : ℚ) ∧ (m * 2 ^ e : ℚ) < bound := by
  cases h with
  | finite h he =>
    have hm' : (0 : ℚ) < m := by exact_mod_cast hm
    exact ⟨by positivity, h.lt_bound_iff.2 he⟩

/-- Floats are compared as the numbers they stand for. -/
theorem IsStored.compare_eq {u v : UnpackedFloat} (hu : IsStored u) (hv : IsStored v)
    (hu' : u ≠ .notANumber) (hv' : v ≠ .notANumber) :
    u.compare v = some (compare (toRat u) (toRat v)) := by
  have hbound := bound_pos
  have hlt {p q : ℚ} (h : p < q) : some Ordering.lt = some (compare p q) := by
    rw [compare_lt_iff_lt.2 h]
  have hgt {p q : ℚ} (h : q < p) : some Ordering.gt = some (compare p q) := by
    rw [compare_gt_iff_gt.2 h]
  have heq {p q : ℚ} (h : p = q) : some Ordering.eq = some (compare p q) := by
    rw [compare_eq_iff_eq.2 h]
  cases u with
  | notANumber => exact absurd rfl hu'
  | infinity s =>
    cases v with
    | notANumber => exact absurd rfl hv'
    | infinity s' =>
      cases s <;> cases s' <;> simp only [UnpackedFloat.compare, toRat, signed]
      · exact heq rfl
      · exact hlt (by linarith)
      · exact hgt (by linarith)
      · exact heq rfl
    | zero s' =>
      cases s <;> simp only [UnpackedFloat.compare, toRat, signed]
      · exact hlt (by linarith)
      · exact hgt hbound
    | finite s' m' e' hm' =>
      obtain ⟨hpos', hlt'⟩ := hv.magnitude_bounds
      cases s <;> cases s' <;> simp only [UnpackedFloat.compare, toRat, signed]
      · exact hlt (by linarith)
      · exact hlt (by linarith)
      · exact hgt (by linarith)
      · exact hgt (by linarith)
  | zero s =>
    cases v with
    | notANumber => exact absurd rfl hv'
    | infinity s' =>
      cases s' <;> simp only [UnpackedFloat.compare, toRat, signed]
      · exact hgt (by linarith)
      · exact hlt hbound
    | zero s' => exact heq rfl
    | finite s' m' e' hm' =>
      obtain ⟨hpos', -⟩ := hv.magnitude_bounds
      cases s' <;> simp only [UnpackedFloat.compare, toRat, signed]
      · exact hgt (by linarith)
      · exact hlt hpos'
  | finite s m e hm =>
    obtain ⟨hpos, hltb⟩ := hu.magnitude_bounds
    cases v with
    | notANumber => exact absurd rfl hv'
    | infinity s' =>
      cases s <;> cases s' <;> simp only [UnpackedFloat.compare, toRat, signed]
      · exact hgt (by linarith)
      · exact hlt (by linarith)
      · exact hgt (by linarith)
      · exact hlt (by linarith)
    | zero s' =>
      cases s <;> simp only [UnpackedFloat.compare, toRat, signed]
      · exact hlt (by linarith)
      · exact hgt hpos
    | finite s' m' e' hm' =>
      obtain ⟨hpos', -⟩ := hv.magnitude_bounds
      cases hu with
      | finite hu => cases hv with
        | finite hv =>
          cases s <;> cases s' <;> simp only [UnpackedFloat.compare, toRat, signed]
          · rw [compare_neg_neg, hu.compare_eq hv]
          · exact hlt (by linarith)
          · exact hgt (by linarith)
          · rw [hu.compare_eq hv]

/-! ## Floats -/

/-- The number that the float stands for. -/
def value (x : Float) : ℚ := toRat x.toModel.unpack

theorem isStored (x : Float) : IsStored x.toModel.unpack := isStored_unpack x.toModel

theorem isNaN_eq_false_iff {x : Float} : x.isNaN = false ↔ x.toModel.unpack ≠ .notANumber := by
  change x.toModel.unpack.isNaN = false ↔ _
  rw [← Bool.not_eq_true, UnpackedFloat.isNaN_iff]

theorem compare_eq {x y : Float} (hx : x.isNaN = false) (hy : y.isNaN = false) :
    x.toModel.unpack.compare y.toModel.unpack = some (compare (value x) (value y)) :=
  (isStored x).compare_eq (isStored y) (isNaN_eq_false_iff.1 hx) (isNaN_eq_false_iff.1 hy)

/-- Floats are compared as the numbers they stand for. -/
theorem le_iff_value_le {x y : Float} (hx : x.isNaN = false) (hy : y.isNaN = false) :
    x ≤ y ↔ value x ≤ value y := by
  change decide (x.toModel.unpack.le y.toModel.unpack = true) = true ↔ _
  rw [decide_eq_true_iff, UnpackedFloat.le, compare_eq hx hy, Option.any_some,
    Ordering.isLE_iff_ne_gt, compare_gt_iff_gt, not_lt]

theorem not_lt_of_isNaN_left {x : Float} (hx : x.isNaN = true) (y : Float) : ¬x < y := by
  change ¬decide (x.toModel.unpack.lt y.toModel.unpack = true) = true
  rw [UnpackedFloat.isNaN_iff.1 hx]
  exact nofun

theorem not_lt_of_isNaN_right {y : Float} (hy : y.isNaN = true) (x : Float) : ¬x < y := by
  change ¬decide (x.toModel.unpack.lt y.toModel.unpack = true) = true
  rw [UnpackedFloat.isNaN_iff.1 hy]
  cases x.toModel.unpack with
  | notANumber | infinity s | zero s | finite s m e hm => exact nofun

theorem lt_iff_value_lt {x y : Float} (hx : x.isNaN = false) (hy : y.isNaN = false) :
    x < y ↔ value x < value y := by
  change decide (x.toModel.unpack.lt y.toModel.unpack = true) = true ↔ _
  rw [decide_eq_true_iff, UnpackedFloat.lt, compare_eq hx hy, beq_iff_eq, Option.some_inj,
    compare_lt_iff_lt]

/-- Floats are equal if they stand for the same number. -/
theorem beq_iff_value_eq {x y : Float} (hx : x.isNaN = false) (hy : y.isNaN = false) :
    (x == y) = true ↔ value x = value y := by
  change (x.toModel.unpack.compare y.toModel.unpack == some .eq) = true ↔ _
  rw [compare_eq hx hy, beq_iff_eq, Option.some_inj, compare_eq_iff_eq]

/-- A float is finite if it stands for a number within the bound. -/
theorem isFinite_iff {x : Float} : x.isFinite = true ↔ x.isNaN = false ∧ |value x| < bound := by
  change x.toModel.unpack.isFinite = true ↔ x.toModel.unpack.isNaN = false ∧ _
  have hbound := bound_pos
  have hstored := isStored x
  rw [value]
  cases hx : x.toModel.unpack with
  | notANumber => exact ⟨nofun, nofun⟩
  | infinity s =>
    rw [toRat, abs_signed, abs_of_pos hbound]
    exact ⟨nofun, fun h ↦ absurd h.2 (lt_irrefl _)⟩
  | zero s => exact ⟨fun _ ↦ ⟨rfl, by rwa [toRat, abs_zero]⟩, fun _ ↦ rfl⟩
  | finite s m e hm =>
    rw [hx] at hstored
    obtain ⟨hpos, hlt⟩ := hstored.magnitude_bounds
    exact ⟨fun _ ↦ ⟨rfl, by rwa [toRat, abs_signed, abs_of_pos hpos]⟩, fun _ ↦ rfl⟩

theorem abs_value_le (x : Float) : |value x| ≤ bound := by
  have hbound := bound_pos
  have hstored := isStored x
  rw [value]
  cases hx : x.toModel.unpack with
  | notANumber | zero s => rw [toRat, abs_zero]; exact hbound.le
  | infinity s => rw [toRat, abs_signed, abs_of_pos hbound]
  | finite s m e hm =>
    rw [hx] at hstored
    obtain ⟨hpos, hlt⟩ := hstored.magnitude_bounds
    rw [toRat, abs_signed, abs_of_pos hpos]
    exact hlt.le

/-- What a finite float is taken for is a zero or canonical. -/
theorem isRounded_of_isFinite {x : Float} (h : x.isFinite = true) :
    IsRounded x.toModel.unpack := by
  change x.toModel.unpack.isFinite = true at h
  have hstored := isStored x
  cases hx : x.toModel.unpack with
  | notANumber | infinity s =>
    rw [hx] at h
    cases h
  | zero s => exact .zero s
  | finite s m e hm =>
    rw [hx] at hstored
    cases hstored with
    | finite h he => exact .finite h

theorem isRepresentable_value (x : Float) : IsRepresentable (value x) := by
  by_cases h : x.isFinite = true
  · exact (isRounded_of_isFinite h).isRepresentable
  · change ¬x.toModel.unpack.isFinite = true at h
    rw [value]
    cases hx : x.toModel.unpack with
    | notANumber => exact .zero
    | infinity s => exact isRepresentable_bound.signed s
    | zero s | finite s m e hm =>
      rw [hx] at h
      exact absurd rfl h

/-- A float is known by the number it stands for, but for the sign of a zero. -/
theorem eq_of_value_eq {x y : Float} (hx : x.isNaN = false) (hy : y.isNaN = false)
    (hx' : x ≠ -0) (hy' : y ≠ -0) (h : value x = value y) : x = y := by
  obtain ⟨-, -, heq | ⟨-, hzero⟩ | ⟨hzero, -⟩⟩ :=
    Float.beq_iff_ne_nan_and_eq.1 ((beq_iff_value_eq hx hy).2 h)
  · exact heq
  · exact absurd hzero hy'
  · exact absurd hzero hx'

end TurtleGraphics.Binary64
