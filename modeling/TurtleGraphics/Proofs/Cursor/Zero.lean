import Mathlib
import TurtleGraphics.Cursor

/-!
# Zeros and signs of floats

An effect that leaves a coordinate alone adds zero to it. That changes no float but the negative
zero, which is equal to what it becomes. A sum is the negative zero only if both its terms are, so a
run that starts without one makes none. Main statements:

* `Binary64.beq_add_zero`: to add zero to a number leaves it equal to what it was;
* `Binary64.add_eq_neg_zero`: which sums are the negative zero;
* `Binary64.neg_neg`: turning the sign around twice gives the float back.

The library is imported as a whole here, and only here: how floats are packed is said in lemmas that
come with all of it and with no smaller part.
-/

namespace TurtleGraphics.Binary64

open Float.Model UnpackedFloat

/-- A float is the one that is made of what it denotes. -/
theorem ofModel_pack_unpack (x : Float) : Float.ofModel (.pack x.toModel.unpack) = x := by
  have hbits : (Float.Model.pack x.toModel.unpack).toBits = x.toModel.toBits :=
    UInt64.toBitVec_inj.1 (UnpackedFloat.pack_unpack_of_valid x.toModel.valid)
  exact Float.toBits_inj.1 hbits

theorem add_zero_of_ne {x : Float} (h : x ≠ -0) : x + 0 = x := by
  have hself (hadd : UnpackedFloat.add .binary64 x.toModel.unpack (.zero .positive) =
      x.toModel.unpack) : x + 0 = x := by
    calc x + 0
        = .ofModel (.pack (UnpackedFloat.add .binary64 x.toModel.unpack (.zero .positive))) := rfl
      _ = .ofModel (.pack x.toModel.unpack) := by rw [hadd]
      _ = x := ofModel_pack_unpack x
  cases hx : x.toModel.unpack with
  | infinity s => exact hself (by rw [hx]; rfl)
  | notANumber => exact hself (by rw [hx]; rfl)
  | finite s m e hm => exact hself (by rw [hx]; rfl)
  | zero s =>
    cases s with
    | positive => exact hself (by rw [hx]; rfl)
    | negative =>
      have hpack := ofModel_pack_unpack x
      rw [hx] at hpack
      exact absurd hpack.symm h

theorem neg_zero_add_zero : (-0 + 0 : Float) = 0 := rfl

/-- To add zero to a number leaves it equal to what it was. -/
theorem beq_add_zero {x : Float} (h : x.isNaN = false) : (x == x + 0) = true := by
  by_cases hx : x = -0
  · rw [hx, neg_zero_add_zero]
    rfl
  · rw [add_zero_of_ne hx, Float.beq_self_iff]
    rwa [Float.isNaN_eq_decide_eq_nan, decide_eq_false_iff_not] at h

/-! ## Sums that are the negative zero -/

/-- Whether the float has a mantissa of at most 53 bits and an exponent that is not below the least
one, if it is neither a zero, nor infinite, nor no number. -/
def Fits : UnpackedFloat → Prop
  | .finite _ m e _ => m < 2 ^ 53 ∧ -1074 ≤ e
  | _ => True

theorem targetExponent_eq (t : Int) :
    Format.binary64.targetExponent t = max (t - 53) (-1074) := rfl

theorem mantissa_shiftRight (em : ExtendedMantissa) (k : Nat) :
    (em >>> k).mantissa = em.mantissa / 2 ^ k := by
  induction k with
  | zero => exact (Nat.div_one _).symm
  | succ k ih =>
    calc (em >>> (k + 1)).mantissa
        = (em >>> k).mantissa / 2 := rfl
      _ = em.mantissa / 2 ^ (k + 1) := by rw [ih, Nat.div_div_eq_div_mul, Nat.pow_succ]

theorem mantissa_ofMantissaAndAccuracy (m : Nat) (a : Accuracy) :
    (ExtendedMantissa.ofMantissaAndAccuracy m a).mantissa = m := by
  cases a with
  | exact => rfl
  | inexact o => cases o <;> rfl

/-- Rounding lowers no mantissa. -/
theorem mantissa_le_roundedMantissa (em : ExtendedMantissa) :
    em.mantissa ≤ em.roundedMantissa := by
  unfold ExtendedMantissa.roundedMantissa
  cases em.accuracy with
  | exact => exact Nat.le_refl _
  | inexact o =>
    cases o with
    | lt => exact Nat.le_refl _
    | eq => exact Nat.le_add_right _ _
    | gt => exact Nat.le_add_right _ _

/-- A mantissa that is shifted to its place does not vanish, and takes 53 bits at most. -/
theorem shiftToTargetExponent_bounds {m : Nat} (hm : 0 < m) {e : Int} (he : -1074 ≤ e)
    (a : Accuracy) :
    0 < (shiftToTargetExponent .binary64 m e a).1.mantissa ∧
      (shiftToTargetExponent .binary64 m e a).1.mantissa < 2 ^ 53 ∧
        -1074 ≤ (shiftToTargetExponent .binary64 m e a).2 := by
  have hlow := Nat.log2_self_le (Nat.ne_of_gt hm)
  have hhigh := @Nat.lt_log2_self m
  simp only [shiftToTargetExponent, shiftToExponent, mantissa_shiftRight,
    mantissa_ofMantissaAndAccuracy, targetExponent_eq, totalExponent]
  -- All bits beyond the 53rd are shifted out, and none if there are no more than those.
  have hshift : (max (m.log2 + 1 + e - 53) (-1074) - e).toNat = m.log2 - 52 := by omega
  rw [hshift]
  refine ⟨Nat.div_pos ?_ (Nat.two_pow_pos _), ?_, by omega⟩
  · exact (Nat.pow_le_pow_right (by decide) (Nat.sub_le _ _)).trans hlow
  · rw [Nat.div_lt_iff_lt_mul (Nat.two_pow_pos _), ← Nat.pow_add]
    exact hhigh.trans_le (Nat.pow_le_pow_right (by decide) (by omega))

/-- Rounding a mantissa that is not zero gives a float that is not zero and fits. -/
theorem exists_roundWithAccuracy (s : Sign) {m : Nat} (hm : 0 < m) {e : Int} (he : -1074 ≤ e)
    (a : Accuracy) : ∃ m' e' hm', roundWithAccuracy .binary64 s m e a = .finite s m' e' hm' ∧
      Fits (.finite s m' e' hm') := by
  obtain ⟨hpos, -, hle⟩ := shiftToTargetExponent_bounds hm he a
  obtain ⟨hpos', hfits⟩ := shiftToTargetExponent_bounds
    (hpos.trans_le (mantissa_le_roundedMantissa _)) hle .exact
  unfold roundWithAccuracy
  dsimp only
  rw [dif_neg (Nat.ne_of_gt hpos')]
  exact ⟨_, _, hpos', rfl, hfits⟩

/-- Nothing is rounded to zero that is not finer than the least float. -/
theorem exists_round (s : Sign) {m : Nat} (hm : 0 < m) {e : Int} (he : -1074 ≤ e) :
    ∃ m' e' hm', UnpackedFloat.round .binary64 s m e = .finite s m' e' hm' ∧
      Fits (.finite s m' e' hm') := by
  unfold UnpackedFloat.round decreaseExponent
  refine exists_roundWithAccuracy s ?_ ?_ .exact
  · rw [Nat.shiftLeft_eq]
    exact Nat.mul_pos hm (Nat.two_pow_pos _)
  · rw [targetExponent_eq]
    omega

/-- A sum that cancels out is the zero it is told to be, and any other sum is no zero. -/
theorem normalize_positive (m : Int) {e : Int} (he : -1074 ≤ e) :
    Fits (UnpackedFloat.normalize .binary64 m e .positive) ∧
      UnpackedFloat.normalize .binary64 m e .positive ≠ .zero .negative := by
  have hround (s : Sign) {m : Nat} (hm : 0 < m) : Fits (UnpackedFloat.round .binary64 s m e) ∧
      UnpackedFloat.round .binary64 s m e ≠ .zero .negative := by
    obtain ⟨m', e', hm', h, hfits⟩ := exists_round s hm he
    rw [h]
    exact ⟨hfits, nofun⟩
  unfold UnpackedFloat.normalize
  split
  · rename_i hlt
    rw [Int.compare_eq_lt] at hlt
    exact hround _ (by omega)
  · exact ⟨trivial, nofun⟩
  · rename_i hgt
    rw [Int.compare_eq_gt] at hgt
    exact hround _ (by omega)

/-- What fits is not stored like a zero. -/
theorem pack_finite_ne_packedZero {s : Sign} {m : Nat} {e : Int} {hm : 0 < m}
    (h : Fits (.finite s m e hm)) (s' : Sign) :
    UnpackedFloat.pack .binary64 (.finite s m e hm) ≠ packedZero .binary64 s' := by
  obtain ⟨hmantissa, hexponent⟩ := h
  intro hpack
  have hE := congrArg (BitVec.toNat ∘ unpackExponent) hpack
  have hM := congrArg (BitVec.toNat ∘ unpackMantissa) hpack
  have hbias : (Format.binary64.exponentBias : Int) = 1023 := rfl
  have hbits : Format.binary64.mantissaBits = 53 := rfl
  simp only [UnpackedFloat.pack, hbias, hbits, packedZero, packedInfinity,
    Function.comp_apply] at hE hM
  split at hE
  · simp at hE
  · rename_i hfinite
    rw [if_neg hfinite] at hM
    split at hE
    · -- A normal float has an exponent that is not the least.
      simp only [Nat.cast_ofNat, unpackExponent_packComponents, BitVec.toNat_ofNat, Nat.reducePow,
        BitVec.ofNat_eq_ofNat, Nat.zero_mod] at hE
      omega
    · rename_i hnormal
      rw [if_neg hnormal] at hM
      have hlt : m < 2 ^ 52 := by
        have hlog : m.log2 < 53 := (Nat.log2_lt (Nat.ne_of_gt hm)).2 hmantissa
        exact (Nat.log2_lt (Nat.ne_of_gt hm)).1 (by omega)
      simp only [unpackMantissa_packComponents, BitVec.toNat_ofNat, Nat.reducePow,
        BitVec.ofNat_eq_ofNat, Nat.zero_mod] at hM
      omega

/-- Nothing else is stored like the negative zero. -/
theorem eq_zero_of_pack {u : UnpackedFloat} (h : Fits u)
    (hpack : UnpackedFloat.pack .binary64 u = packedZero .binary64 .negative) :
    u = .zero .negative := by
  cases u with
  | infinity s => cases s <;> exact absurd hpack (by decide)
  | notANumber => exact absurd hpack (by decide)
  | zero s =>
    cases s with
    | negative => rfl
    | positive => exact absurd hpack (by decide)
  | finite s m e hm => exact absurd hpack (pack_finite_ne_packedZero h _)

/-- What is stored fits. -/
theorem fits_unpack (x : Float.Model) : Fits x.unpack := by
  have hbias : (Format.binary64.exponentBias : Int) = 1023 := rfl
  simp only [Float.Model.unpack, UnpackedFloat.unpack, hbias]
  split
  · split
    · trivial
    · trivial
  · split
    · split
      · trivial
      · exact ⟨(BitVec.isLt _).trans (by decide), by omega⟩
    · rename_i hexponent
      have hpos := BitVec.toNat_pos_of_ne_zero hexponent
      exact ⟨BitVec.isLt _, by omega⟩

/-- What is added up fits, and is the negative zero only if both terms are. -/
theorem fits_add {u v : UnpackedFloat} (hu : Fits u) (hv : Fits v) :
    Fits (UnpackedFloat.add .binary64 u v) ∧
      (UnpackedFloat.add .binary64 u v = .zero .negative →
        u = .zero .negative ∧ v = .zero .negative) := by
  unfold UnpackedFloat.add
  split
  · exact ⟨trivial, nofun⟩
  · exact ⟨trivial, nofun⟩
  · split
    · exact ⟨trivial, nofun⟩
    · exact ⟨trivial, nofun⟩
  · exact ⟨trivial, nofun⟩
  · exact ⟨trivial, nofun⟩
  · rename_i s s'
    split
    · rename_i hs
      refine ⟨trivial, fun h ↦ ?_⟩
      cases h
      cases s' with
      | negative => exact ⟨rfl, rfl⟩
      | positive => cases hs
    · exact ⟨trivial, nofun⟩
  · rename_i hzero
    exact ⟨hv, fun h ↦ absurd h (hzero _)⟩
  · rename_i hzero
    exact ⟨hu, fun h ↦ absurd h (hzero _)⟩
  · rename_i s m e hm s' m' e' hm'
    have he : -1074 ≤ min e e' := le_min hu.2 hv.2
    obtain ⟨hfits, hne⟩ := normalize_positive _ he
    exact ⟨hfits, fun h ↦ absurd h hne⟩

/-- A sum is the negative zero only if both its terms are. -/
theorem add_eq_neg_zero {x y : Float} (h : x + y = -0) : x = -0 ∧ y = -0 := by
  have hzero {z : Float} (hz : z.toModel.unpack = .zero .negative) : z = -0 := by
    rw [← ofModel_pack_unpack z, hz]
    rfl
  have hpack : UnpackedFloat.pack .binary64
      (UnpackedFloat.add .binary64 x.toModel.unpack y.toModel.unpack) =
        packedZero .binary64 .negative := congrArg (fun z ↦ z.toModel.toBits.toBitVec) h
  obtain ⟨hfits, hadd⟩ := fits_add (fits_unpack x.toModel) (fits_unpack y.toModel)
  obtain ⟨hx, hy⟩ := hadd (eq_zero_of_pack hfits hpack)
  exact ⟨hzero hx, hzero hy⟩

/-! ## Negation -/

theorem neg_neg_sign (s : Sign) : - -s = s := by
  cases s with
  | negative => rfl
  | positive => rfl

theorem neg_neg_unpacked (u : UnpackedFloat) : u.neg.neg = u := by
  cases u with
  | notANumber => rfl
  | infinity s | zero s | finite s m e hm => simp only [UnpackedFloat.neg, neg_neg_sign]

/-- The sign is stored by itself. -/
theorem unpack_packComponents_neg (s : Sign) (e : BitVec Format.binary64.exponentBits)
    (m : BitVec Format.binary64.mantissaBitsWithoutImplicit) :
    UnpackedFloat.unpack .binary64 (packComponents .binary64 (-s) e m) =
      (UnpackedFloat.unpack .binary64 (packComponents .binary64 s e m)).neg := by
  simp only [UnpackedFloat.unpack, unpackExponent_packComponents, unpackMantissa_packComponents,
    unpackSign_packComponents, Sign.ofBitVec_toBitVec]
  split
  · split
    · rfl
    · rfl
  · split
    · split
      · rfl
      · rfl
    · rfl

/-- A float and its negation are stored alike, but for the sign. -/
theorem exists_packComponents {u : UnpackedFloat} (h : u ≠ .notANumber) :
    ∃ s e m, UnpackedFloat.pack .binary64 u = packComponents .binary64 s e m ∧
      UnpackedFloat.pack .binary64 u.neg = packComponents .binary64 (-s) e m := by
  cases u with
  | notANumber => exact absurd rfl h
  | infinity s | zero s => exact ⟨s, _, _, rfl, rfl⟩
  | finite s m e hm =>
    simp only [UnpackedFloat.neg, UnpackedFloat.pack]
    split
    · exact ⟨s, _, _, rfl, rfl⟩
    · split
      · exact ⟨s, _, _, rfl, rfl⟩
      · exact ⟨s, _, _, rfl, rfl⟩

theorem unpack_toModel_neg (x : Float) : (-x).toModel.unpack = x.toModel.unpack.neg := by
  have hx : UnpackedFloat.pack .binary64 x.toModel.unpack = x.toModel.toBits.toBitVec :=
    pack_unpack_of_valid x.toModel.valid
  have hneg : (-x).toModel.unpack = UnpackedFloat.unpack .binary64
      (UnpackedFloat.pack .binary64 x.toModel.unpack.neg) := rfl
  by_cases h : x.toModel.unpack = .notANumber
  · rw [hneg, h]
    exact unpack_packedNaN
  · obtain ⟨s, e, m, hpack, hpackneg⟩ := exists_packComponents h
    rw [hneg, hpackneg, unpack_packComponents_neg, ← hpack, hx]
    rfl

theorem neg_neg (x : Float) : - -x = x := by
  rw [← ofModel_pack_unpack (- -x), unpack_toModel_neg, unpack_toModel_neg, neg_neg_unpacked,
    ofModel_pack_unpack]

end TurtleGraphics.Binary64
