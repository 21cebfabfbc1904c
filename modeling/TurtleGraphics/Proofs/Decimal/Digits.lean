import Mathlib.Data.List.Basic
import Mathlib.Order.Nat
import TurtleGraphics.Decimal.Layout

/-!
# The digits of a float

A finite float that is not zero has digits, of which the first is not zero. It is found among the
numbers that read back as the float, and those are above zero. A number with a fixed number of
places is its digits with a point among them. Main statements:

* `Decimal.isProper_shortest`: the shortest digits begin with one that is not zero;
* `Decimal.exists_pointed`: what is written with a fixed number of places;
* `Decimal.exists_finite_of_isFinite`: a finite float is a whole multiple of a power of two.
-/

namespace TurtleGraphics.Decimal

/-! ## Numbers that read back -/

namespace Expansion

theorem units_ofBinary_lt {m n : Nat} (h : m < n) (q : Int) :
    (ofBinary m q).units < (ofBinary n q).units := by
  cases q with
  | ofNat k => exact Nat.mul_lt_mul_of_pos_right h (Nat.pow_pos (by decide))
  | negSucc k => exact Nat.mul_lt_mul_of_pos_right h (Nat.pow_pos (by decide))

end Expansion

namespace Interval

/-- What reads back as a float above zero is above zero, and the float itself reads back. -/
theorem ofBinary_bounds {m : Nat} (hm : 0 < m) (q : Int) :
    0 < (ofBinary m q).1.low ∧ (ofBinary m q).1.contains (ofBinary m q).1.center := by
  let below := if m = Binary.hiddenBit ∧ q ≠ Binary.leastExponent then 1 else 2
  have hbelow : 0 < below ∧ below ≤ 2 := by
    dsimp only [below]
    split
    · decide
    · decide
  have hlow : 0 < (ofBinary m q).1.low :=
    Nat.zero_lt_of_lt (Expansion.units_ofBinary_lt (show 0 < 4 * m - below by omega) _)
  have hcenter : (ofBinary m q).1.low < (ofBinary m q).1.center :=
    Expansion.units_ofBinary_lt (show 4 * m - below < 4 * m by omega) _
  have hhigh : (ofBinary m q).1.center < (ofBinary m q).1.high :=
    Expansion.units_ofBinary_lt (show 4 * m < 4 * m + 2 by omega) _
  refine ⟨hlow, ?_⟩
  rw [contains]
  split
  · rw [Bool.and_eq_true]
    exact ⟨decide_eq_true hcenter.le, decide_eq_true hhigh.le⟩
  · rw [Bool.and_eq_true]
    exact ⟨decide_eq_true hcenter, decide_eq_true hhigh⟩

theorem pos_of_contains {i : Interval} (hlow : 0 < i.low) {n : Nat} (h : i.contains n) :
    0 < n := by
  rw [contains] at h
  split at h
  · exact hlow.trans_le (of_decide_eq_true (Bool.and_eq_true_iff.1 h).1)
  · exact hlow.trans (of_decide_eq_true (Bool.and_eq_true_iff.1 h).1)

end Interval

/-! ## Digits -/

/-- Digits of which the first is not zero. -/
inductive IsProper : List Char → Prop
  | digits {c : Char} {cs : List Char} (hc : c ≠ '0') (h : ∀ d ∈ c :: cs, d.isDigit) :
    IsProper (c :: cs)

theorem isProper_toDigits {n : Nat} (hn : 0 < n) : IsProper (Nat.toDigits 10 n) := by
  induction n using Nat.strongRecOn with
  | _ n ih =>
    have hdigits : ∀ d ∈ Nat.toDigits 10 n, d.isDigit := fun d hd ↦
      Nat.isDigit_of_mem_toDigits (by decide) (by decide) hd
    rw [Nat.toDigits_eq_if (by decide)] at hdigits ⊢
    split
    · rename_i hlt
      rw [if_pos hlt] at hdigits
      exact .digits (fun hzero ↦ hn.ne' (Nat.digitChar_eq_zero.1 hzero)) hdigits
    · rename_i hge
      rw [if_neg hge] at hdigits
      cases hn' : Nat.toDigits 10 (n / 10) with
      | nil => exact absurd hn' Nat.toDigits_ne_nil
      | cons c cs =>
        have hproper := ih (n / 10) (by omega) (by omega)
        rw [hn'] at hproper hdigits
        cases hproper with
        | digits hc _ => exact .digits hc hdigits

/-- Zeros at the end can be left out. -/
theorem IsProper.dropZeros {cs : List Char} (h : IsProper cs) :
    IsProper (cs.reverse.dropWhile (· = '0')).reverse := by
  cases h with
  | @digits c cs hc h =>
    have hkeep : ((c :: cs).reverse.dropWhile (· = '0')).reverse =
        c :: (cs.reverse.dropWhile (· = '0')).reverse := by
      rw [List.reverse_cons, List.dropWhile_append]
      split
      · rename_i hempty
        rw [List.isEmpty_iff.1 hempty, List.dropWhile_cons_of_neg (by simpa using hc)]
        rfl
      · rw [List.reverse_append]
        rfl
    rw [hkeep]
    refine .digits hc fun d hd ↦ ?_
    obtain rfl | hd := List.mem_cons.1 hd
    · exact h _ List.mem_cons_self
    · have hmem := (List.dropWhile_sublist _).subset (List.mem_reverse.1 hd)
      exact h d (List.mem_cons_of_mem c (List.mem_reverse.1 hmem))

theorem isProper_shortest {m : Nat} (hm : 0 < m) (q : Int) : IsProper (shortest m q).digits := by
  obtain ⟨hlow, hcenter⟩ := Interval.ofBinary_bounds hm q
  have hpos := Interval.pos_of_contains hlow (Interval.contains_coarsest hcenter
    ((Nat.toDigits 10 (Interval.ofBinary m q).1.center).length - 1))
  exact (isProper_toDigits hpos).dropZeros

/-! ## Digits with a point -/

/-- A number is written as its digits, zeros in front, with a point before the places. -/
theorem exists_pointed (places units : Nat) : ∃ whole fraction,
    pointed places units = whole ++ '.' :: fraction ∧ whole ≠ [] ∧ fraction.length = places ∧
      (∀ c ∈ whole ++ fraction, c.isDigit) ∧
      Nat.ofDigitChars 10 (whole ++ fraction) 0 = units := by
  rw [pointed]
  generalize hpadded : List.replicate (places + 1 - (Nat.toDigits 10 units).length) '0' ++
    Nat.toDigits 10 units = padded
  have hlength : places + 1 ≤ padded.length := by
    rw [← hpadded, List.length_append, List.length_replicate]
    omega
  refine ⟨_, _, rfl, ?_, ?_, ?_, ?_⟩
  · rw [← List.length_pos_iff, List.length_take]
    omega
  · rw [List.length_drop]
    omega
  · rw [List.take_append_drop, ← hpadded]
    intro c hc
    obtain hc | hc := List.mem_append.1 hc
    · obtain rfl := List.eq_of_mem_replicate hc
      rfl
    · exact Nat.isDigit_of_mem_toDigits (by decide) (by decide) hc
  · rw [List.take_append_drop, ← hpadded, Nat.ofDigitChars_append,
      Nat.ofDigitChars_replicate_zero, Nat.mul_zero, Nat.ofDigitChars_ten_toDigits]

/-! ## Finite floats -/

section

open Float.Model UnpackedFloat

/-- The fields of a float are read apart by place value. -/
theorem toNat_unpack (x : Float) :
    (@unpackExponent .binary64 x.toModel.toBits.toBitVec).toNat =
        x.toBits.toNat / Binary.hiddenBit % 2048 ∧
      (@unpackMantissa .binary64 x.toModel.toBits.toBitVec).toNat =
        x.toBits.toNat % Binary.hiddenBit ∧
      (@unpackSign .binary64 x.toModel.toBits.toBitVec).toNat =
        x.toBits.toNat / Binary.signBit % 2 := by
  have hshift (n : Nat) : x.toBits.toNat >>> n = x.toBits.toNat / 2 ^ n :=
    Nat.shiftRight_eq_div_pow _ _
  exact ⟨congrArg (· % 2048) (hshift 52), rfl, congrArg (· % 2) (hshift 63)⟩

/-- A finite float is a multiple of a power of two. -/
theorem exists_finite_of_isFinite {x : Float} (h : x.isFinite) :
    ∃ negative m q, Binary.ofFloat x = .finite negative m q := by
  have hbiased : x.toBits.toNat / Binary.hiddenBit % 2048 ≠ 2047 := by
    intro hbiased
    rw [← (toNat_unpack x).1] at hbiased
    have hones : @unpackExponent .binary64 x.toModel.toBits.toBitVec = -1#11 :=
      BitVec.eq_of_toNat_eq hbiased
    have hfinite : x.toModel.unpack.isFinite = true := h
    unfold Float.Model.unpack UnpackedFloat.unpack at hfinite
    dsimp only at hfinite
    rw [if_pos hones] at hfinite
    split at hfinite
    · cases hfinite
    · cases hfinite
  rw [Binary.ofFloat, Binary.ofBits, Binary.ofFields, if_neg hbiased]
  split
  · exact ⟨_, _, _, rfl⟩
  · exact ⟨_, _, _, rfl⟩

end

end TurtleGraphics.Decimal
