import Mathlib.Tactic.FieldSimp
import Mathlib.Tactic.LinearCombination
import TurtleGraphics.Proofs.Binary64.Value
import TurtleGraphics.Proofs.Decimal.Digits

/-!
# How exact a fixed number of places is

A float is read apart into a sign, a whole mantissa and a power of two, and these make up the number
it stands for. The expansion of that number is exact, and it is rounded once, to the last place that
is shown. So what is written can be read back as the nearest number with that many places, which is
off by half a unit of the last place at most. Main statements:

* `Decimal.value_eq_of_ofFloat`: a float stands for the number that it is read apart into;
* `Decimal.Expansion.isNearestEven_roundTo`: to round an expansion is to find the nearest number;
* `Decimal.exists_read?_fixed`: what is read from a float that is written with fixed places.
-/

namespace TurtleGraphics.Decimal

/-! ## What a float is read apart into -/

/-- The number with its sign. -/
def signed (negative : Bool) (q : ℚ) : ℚ := if negative then -q else q

theorem signed_mul (negative : Bool) (p q : ℚ) :
    signed negative (p * q) = signed negative p * q := by
  cases negative with
  | false => rfl
  | true => exact (neg_mul p q).symm

section

open Float.Model UnpackedFloat

theorem signed_ofBitVec (b : BitVec 1) (q : ℚ) :
    Binary64.signed (.ofBitVec b) q = signed (b.toNat = 1) q := by
  obtain rfl | rfl := BitVec.eq_zero_or_eq_one b
  · rfl
  · rfl

/-- The leading bit of a mantissa is not stored. -/
theorem toNat_one_append (fraction : BitVec 52) :
    (1#1 ++ fraction).toNat = fraction.toNat + Binary.hiddenBit := by
  rw [BitVec.toNat_append, ← Nat.shiftLeft_add_eq_or_of_lt fraction.isLt, Nat.add_comm]
  rfl

/-- A float stands for the number that it is read apart into. -/
theorem value_eq_of_ofFloat {x : Float} {negative : Bool} {m : Nat} {q : ℤ}
    (h : Binary.ofFloat x = .finite negative m q) :
    Binary64.value x = signed negative (m * 2 ^ q) := by
  obtain ⟨hexponent, hmantissa, hsign⟩ := toNat_unpack x
  rw [Binary.ofFloat, Binary.ofBits, Binary.ofFields, ← hexponent, ← hmantissa, ← hsign] at h
  rw [Binary64.value, Float.Model.unpack, UnpackedFloat.unpack]
  dsimp only
  split at h
  · split at h
    · cases h
    · cases h
  · rename_i hfinite
    rw [if_neg fun hones ↦ hfinite (by rw [hones]; rfl)]
    split at h
    · -- The leading bit of a subnormal float is zero, and a zero has no other bits.
      rename_i hleast
      obtain ⟨rfl, rfl, rfl⟩ := Binary.finite.inj h
      rw [if_pos (BitVec.eq_of_toNat_eq hleast)]
      split
      · rename_i hzero
        rw [hzero, Binary64.toRat, signed, BitVec.toNat_zero, Nat.cast_zero, zero_mul, neg_zero,
          ite_self]
      · rw [Binary64.toRat, signed_ofBitVec, hleast]
        rfl
    · rename_i hnormal
      obtain ⟨rfl, rfl, rfl⟩ := Binary.finite.inj h
      rw [if_neg fun hzeros ↦ hnormal (by rw [hzeros]; rfl), Binary64.toRat, signed_ofBitVec,
        toNat_one_append]
      congr 3
      have hbias : (Format.binary64.exponentBias : ℤ) = 1023 := rfl
      have hbits : (Format.binary64.mantissaBitsWithoutImplicit : ℤ) = 52 := rfl
      rw [hbias, hbits, Binary.leastExponent]
      omega

end

/-! ## The nearest number of units -/

/-- Whether `n` is the whole number nearest to `q`, and the even one if two are equally near. -/
structure IsNearestEven (q : ℚ) (n : ℤ) : Prop where
  two_mul_abs_sub_le : 2 * |n - q| ≤ 1
  even_of_tie : 2 * |n - q| = 1 → Even n

theorem IsNearestEven.intCast (n : ℤ) : IsNearestEven n n := by
  constructor
  · rw [sub_self, abs_zero, mul_zero]
    exact zero_le_one
  · intro htie
    rw [sub_self, abs_zero, mul_zero] at htie
    exact absurd htie zero_ne_one

theorem IsNearestEven.neg {q : ℚ} {n : ℤ} (h : IsNearestEven q n) : IsNearestEven (-q) (-n) := by
  have hdist : |((-n : ℤ) : ℚ) - -q| = |n - q| := by rw [Int.cast_neg, ← neg_sub', abs_neg]
  constructor
  · rw [hdist]
    exact h.two_mul_abs_sub_le
  · rw [hdist]
    exact fun htie ↦ (h.even_of_tie htie).neg

theorem IsNearestEven.signed {q : ℚ} {n : ℤ} (h : IsNearestEven q n) (negative : Bool) :
    IsNearestEven (signed negative q) (if negative then -n else n) := by
  cases negative with
  | false => exact h
  | true => exact h.neg

/-- A quotient is off by half only if it is between two neighbours. -/
theorem two_mul_mod_of_half {a b : Nat} (hb : 0 < b)
    (h : 2 * (roundDiv a b * b) = 2 * a + b ∨ 2 * a = 2 * (roundDiv a b * b) + b) :
    2 * (a % b) = b := by
  have hdiv := Nat.div_add_mod' a b
  have hlt := Nat.mod_lt a hb
  by_contra hne
  unfold roundDiv at h
  split at h
  · omega
  · rw [if_pos (by omega), Nat.add_mul] at h
    omega

/-- A quotient is compared with a whole number as a multiple of its divisor. -/
theorem IsNearestEven.div {a b : ℚ} {n : ℤ} (hb : 0 < b) (hlow : 2 * a ≤ 2 * (n * b) + b)
    (hhigh : 2 * (n * b) ≤ 2 * a + b)
    (heven : 2 * (n * b) = 2 * a + b ∨ 2 * a = 2 * (n * b) + b → Even n) :
    IsNearestEven (a / b) n := by
  have ha : a / b * b = a := div_mul_cancel₀ a hb.ne'
  generalize a / b = q at *
  subst ha
  obtain hd | hd := abs_choice (n - q)
  · constructor
    · rw [hd]
      exact le_of_mul_le_mul_right (by linarith) hb
    · rw [hd]
      exact fun htie ↦ heven (.inl (by linear_combination b * htie))
  · constructor
    · rw [hd]
      exact le_of_mul_le_mul_right (by linarith) hb
    · rw [hd]
      exact fun htie ↦ heven (.inr (by linear_combination b * htie))

theorem isNearestEven_roundDiv (a : Nat) {b : Nat} (hb : 0 < b) :
    IsNearestEven (a / b) (roundDiv a b) := by
  refine .div (by exact_mod_cast hb) ?_ ?_ fun htie ↦ ?_
  · exact_mod_cast le_two_mul_roundDiv_mul hb
  · exact_mod_cast two_mul_roundDiv_mul_le
  · have hmod := two_mul_mod_of_half hb (by exact_mod_cast htie)
    exact_mod_cast Nat.even_iff.2 (roundDiv_even_of_tie hmod)

/-! ## Expansions -/

namespace Expansion

/-- The number that the expansion is of. -/
def value (e : Expansion) : ℚ := e.units / 10 ^ e.places

theorem value_ofBinary (m : Nat) (q : ℤ) : (ofBinary m q).value = m * 2 ^ q := by
  cases q with
  | ofNat n =>
    rw [ofBinary, value, Nat.pow_eq, Nat.cast_mul, Nat.cast_pow, pow_zero, div_one]
    rfl
  | negSucc n =>
    have hten : (10 : ℚ) = 5 * 2 := by norm_num
    rw [ofBinary, value, Nat.pow_eq, Nat.cast_mul, Nat.cast_pow, Nat.cast_ofNat, zpow_negSucc,
      hten, mul_pow]
    field_simp

/-- An expansion is rounded to the nearest number with the given places. -/
theorem isNearestEven_roundTo (n : Nat) (e : Expansion) :
    IsNearestEven (e.value * 10 ^ n) (e.roundTo n) := by
  have hten : (10 : ℚ) ≠ 0 := by norm_num
  rw [roundTo, value]
  split
  · rename_i hle
    have hexact : (e.units / 10 ^ e.places * 10 ^ n : ℚ) =
        ((e.units * Nat.pow 10 (n - e.places) : Nat) : ℤ) := by
      rw [Nat.pow_eq, Int.cast_natCast, Nat.cast_mul, Nat.cast_pow, Nat.cast_ofNat,
        pow_sub₀ _ hten hle]
      ring
    rw [hexact]
    exact .intCast _
  · rename_i hlt
    have hquotient : (e.units / 10 ^ e.places * 10 ^ n : ℚ) =
        e.units / (Nat.pow 10 (e.places - n) : Nat) := by
      rw [Nat.pow_eq, Nat.cast_pow, Nat.cast_ofNat, pow_sub₀ _ hten (Nat.le_of_not_le hlt)]
      field_simp
    rw [hquotient]
    exact isNearestEven_roundDiv _ (Nat.pow_pos (by decide))

end Expansion

/-! ## Reading a decimal -/

/-- The number that digits with a point after the first of them or later stand for. -/
def unsigned? (cs : List Char) : Option ℚ :=
  match cs.dropWhile Char.isDigit with
  | '.' :: fraction =>
    let digits := cs.takeWhile Char.isDigit ++ fraction
    if cs.head?.any Char.isDigit ∧ fraction.all Char.isDigit then
      some (Nat.ofDigitChars 10 digits 0 / 10 ^ fraction.length)
    else none
  | _ => none

/-- The number that a decimal with a point, and a minus before it or none, stands for. -/
def read? : List Char → Option ℚ
  | '-' :: cs => Neg.neg <$> unsigned? cs
  | cs => unsigned? cs

/-- What is written for a number of units is read as that many of them. -/
theorem unsigned?_pointed (places units : Nat) :
    unsigned? (pointed places units) = some (units / 10 ^ places : ℚ) := by
  obtain ⟨whole, fraction, hpointed, hne, hlength, hdigits, hvalue⟩ := exists_pointed places units
  have hwhole : ∀ c ∈ whole, c.isDigit := fun c hc ↦ hdigits c (List.mem_append_left _ hc)
  have hfraction : ∀ c ∈ fraction, c.isDigit := fun c hc ↦ hdigits c (List.mem_append_right _ hc)
  have hpoint : ¬ Char.isDigit '.' = true := by decide
  have hhead : (whole ++ '.' :: fraction).head?.any Char.isDigit = true := by
    cases whole with
    | nil => exact absurd rfl hne
    | cons c whole => exact hwhole c List.mem_cons_self
  rw [hpointed, unsigned?, List.dropWhile_append_of_pos hwhole, List.dropWhile_cons_of_neg hpoint,
    List.takeWhile_append_of_pos hwhole, List.takeWhile_cons_of_neg hpoint, List.append_nil]
  simp only [hhead, List.all_eq_true.2 hfraction, hvalue, hlength, and_self, if_true]

theorem read?_eq_of_unsigned? {cs : List Char} {q : ℚ} (h : unsigned? cs = some q) :
    read? cs = some q := by
  unfold read?
  split
  · cases h
  · exact h

theorem read?_sign_append {cs : List Char} {q : ℚ} (h : unsigned? cs = some q) (negative : Bool) :
    read? (sign negative ++ cs) = some (signed negative q) := by
  cases negative with
  | false => exact read?_eq_of_unsigned? h
  | true =>
    show Neg.neg <$> unsigned? cs = _
    rw [h]
    rfl

/-- Written with a fixed number of places, a float is rounded to the nearest number that has them,
and that is what is read. -/
theorem exists_read?_fixed (places : Nat) {x : Float} (h : x.isFinite = true) :
    ∃ n : ℤ, IsNearestEven (Binary64.value x * 10 ^ places) n ∧
      read? (fixed places x).toList = some (n / 10 ^ places : ℚ) := by
  obtain ⟨negative, m, q, hx⟩ := exists_finite_of_isFinite h
  have hnearest := (Expansion.isNearestEven_roundTo places (.ofBinary m q)).signed negative
  rw [Expansion.value_ofBinary, signed_mul, ← value_eq_of_ofFloat hx] at hnearest
  refine ⟨_, hnearest, ?_⟩
  rw [fixed, String.toList_ofList, hx, read?_sign_append (unsigned?_pointed _ _)]
  cases negative with
  | false => rfl
  | true => simp [signed, neg_div]

/-- What is written is off by half a unit of the last place at most. -/
theorem abs_sub_le_of_isNearestEven {q : ℚ} {places : Nat} {n : ℤ}
    (h : IsNearestEven (q * 10 ^ places) n) : |n / 10 ^ places - q| ≤ 1 / (2 * 10 ^ places) := by
  have hunit : (0 : ℚ) < 10 ^ places := by positivity
  have hscaled : |n / 10 ^ places - q| * 10 ^ places = |n - q * 10 ^ places| := by
    rw [← abs_of_pos hunit, ← abs_mul, abs_of_pos hunit, sub_mul, div_mul_cancel₀ _ hunit.ne']
  rw [le_div_iff₀ (by positivity)]
  linarith [h.two_mul_abs_sub_le]

example : read? (fixed 3 (-0.0625)).toList = some (-62 / 1000) := by decide +kernel

end TurtleGraphics.Decimal
