import Mathlib.Algebra.Order.BigOperators.Group.List
import TurtleGraphics.Proofs.Binary64.Arithmetic

/-!
# Running sums of floats

Finite floats are added to a running sum one after the other, and every time the sum is rounded.
Main statements:

* `Binary64.value_le_value_foldl_add`: terms that are not negative never lower the sum, not even
  when it becomes infinite;
* `Binary64.value_foldl_add`: a sum of whole numbers is exact as long as their magnitudes add up to
  53 bits at most;
* `Binary64.isWithin_foldl_add`: a sum is finite as long as twice the magnitudes of its terms are in
  range.
-/

namespace TurtleGraphics.Binary64

variable {s x : Float} {xs : List Float}

/-! ## Terms that are not negative -/

/-- To add a finite number that is not negative lowers nothing. -/
theorem value_le_value_add (hx : x.isFinite = true) (hx' : 0 ≤ value x) :
    value s ≤ value (s + x) := by
  by_cases hfinite : s.isFinite = true
  · exact (isRounding_add hfinite hx).le_value (isRepresentable_value s) (abs_value_le s)
      (le_add_of_nonneg_right hx')
  · rw [add_eq_left hfinite hx]

theorem value_le_value_foldl_add (hxs : ∀ x ∈ xs, x.isFinite = true ∧ 0 ≤ value x) :
    value s ≤ value (xs.foldl (· + ·) s) := by
  induction xs generalizing s with
  | nil => exact le_rfl
  | cons x xs ih =>
    obtain ⟨hx, hxs⟩ := List.forall_mem_cons.1 hxs
    exact (value_le_value_add hx.1 hx.2).trans (ih hxs)

/-- A number stays one when finite terms are added. -/
theorem isNaN_foldl_add_eq_false (hxs : ∀ x ∈ xs, x.isFinite = true) (hs : s.isNaN = false) :
    (xs.foldl (· + ·) s).isNaN = false := by
  induction xs generalizing s with
  | nil => exact hs
  | cons x xs ih =>
    obtain ⟨hx, hxs⟩ := List.forall_mem_cons.1 hxs
    exact ih hxs (isNaN_add_eq_false hs hx)

/-! ## Sums of whole numbers -/

/-- A sum of whole numbers is exact if it is not too large. -/
theorem value_add_of_intCast {m n : ℤ} (hs : s.isFinite = true) (hs' : value s = m)
    (hx : x.isFinite = true) (hx' : value x = n) (hmn : |m + n| ≤ 2 ^ 53) :
    (s + x).isFinite = true ∧ value (s + x) = (m + n : ℤ) := by
  have hadd := isRounding_add hs hx
  rw [hs', hx', ← Int.cast_add] at hadd
  have hvalue := hadd.value_eq (.intCast hmn) (abs_intCast_lt_bound hmn).le
  exact ⟨hadd.isFinite (hvalue ▸ abs_intCast_lt_bound hmn), hvalue⟩

/-- No sum on the way is larger than the magnitudes of the numbers together. -/
theorem value_foldl_add {m : ℤ} {ns : List ℤ}
    (h : List.Forall₂ (fun n x ↦ IsRounding ((n : ℤ) : ℚ) x) ns xs) (hs : s.isFinite = true)
    (hs' : value s = m) (hm : |m| + (ns.map abs).sum ≤ 2 ^ 53) :
    (xs.foldl (· + ·) s).isFinite = true ∧
      value (xs.foldl (· + ·) s) = (m + ns.sum : ℤ) := by
  induction h generalizing s m with
  | nil => exact ⟨hs, by simpa using hs'⟩
  | @cons n x ns xs hx _ ih =>
    rw [List.map_cons, List.sum_cons] at hm
    have hnonneg : 0 ≤ (ns.map abs).sum := List.sum_nonneg (by simp)
    have hn : |n| ≤ 2 ^ 53 := by linarith [abs_nonneg m]
    have hmn : |m + n| ≤ |m| + |n| := abs_add_le m n
    have hvalue := hx.value_eq (.intCast hn) (abs_intCast_lt_bound hn).le
    obtain ⟨hfinite, hvalue⟩ := value_add_of_intCast hs hs'
      (hx.isFinite (hvalue ▸ abs_intCast_lt_bound hn)) hvalue (by linarith)
    rw [List.foldl_cons, List.sum_cons, ← add_assoc]
    exact ih hfinite hvalue (by linarith)

/-! ## Finite sums -/

/-- Whether the float is finite and not further from zero than `b`. -/
structure IsWithin (b : ℚ) (x : Float) : Prop where
  isFinite : x.isFinite = true
  abs_value_le : |value x| ≤ b

namespace IsWithin

variable {b e : ℚ} {y : Float}

theorem mono (h : IsWithin b x) (hle : b ≤ e) : IsWithin e x :=
  ⟨h.isFinite, h.abs_value_le.trans hle⟩

theorem zero (h : 0 ≤ b) : IsWithin b 0 := ⟨rfl, by rwa [value_zero, abs_zero]⟩

theorem ofNat {n : Nat} (h : n ≤ 2 ^ 53) : IsWithin n (.ofNat n) := by
  have hvalue : |value (Float.ofNat n)| = n := by rw [value_ofNat h, Nat.abs_cast]
  refine ⟨(isRounding_ofNat n).isFinite ?_, hvalue.le⟩
  rw [hvalue]
  exact lt_of_le_of_lt (by exact_mod_cast h) two_pow_lt_bound

theorem neg (h : IsWithin b x) : IsWithin b (-x) :=
  ⟨(isFinite_neg x).trans h.isFinite, by rw [value_neg, abs_neg]; exact h.abs_value_le⟩

/-- A sum is not further from zero than its first term and twice the other one. -/
theorem add (hx : IsWithin b x) (hy : IsWithin e y) (h : b + 2 * e < bound) :
    IsWithin (b + 2 * e) (x + y) := by
  have hadd := isRounding_add hx.isFinite hy.isFinite
  have hvalue : |value (x + y)| ≤ b + 2 * e := by
    obtain ⟨v, hv, hvalue⟩ := hadd.exists_isNearest
    rw [hvalue]
    refine ((abs_clamp_le v).trans (hv.abs_le_add_two_mul (isRepresentable_value x))).trans ?_
    linarith [hx.abs_value_le, hy.abs_value_le]
  exact ⟨hadd.isFinite (hvalue.trans_lt h), hvalue⟩

theorem sub (hx : IsWithin b x) (hy : IsWithin e y) (h : b + 2 * e < bound) :
    IsWithin (b + 2 * e) (x - y) := by
  rw [sub_eq_add_neg]
  exact hx.add hy.neg h

end IsWithin

theorem isWithin_foldl_add (hxs : ∀ x ∈ xs, x.isFinite = true) {b : ℚ} (hs : IsWithin b s)
    (h : b + 2 * (xs.map fun x ↦ |value x|).sum < bound) :
    IsWithin (b + 2 * (xs.map fun x ↦ |value x|).sum) (xs.foldl (· + ·) s) := by
  induction xs generalizing s b with
  | nil => simpa using hs
  | cons x xs ih =>
    obtain ⟨hx, hxs⟩ := List.forall_mem_cons.1 hxs
    rw [List.map_cons, List.sum_cons, mul_add, ← add_assoc] at h ⊢
    have hnonneg : 0 ≤ (xs.map fun x ↦ |value x|).sum := List.sum_nonneg (by simp)
    exact ih hxs (hs.add ⟨hx, le_rfl⟩ (by linarith)) h

/-- The rounded terms are not greater than twice the exact ones. -/
theorem sum_abs_value_le {qs : List ℚ} (h : List.Forall₂ IsRounding qs xs) :
    (xs.map fun x ↦ |value x|).sum ≤ 2 * (qs.map abs).sum := by
  induction h with
  | nil => simp
  | cons hx _ ih =>
    rw [List.map_cons, List.map_cons, List.sum_cons, List.sum_cons, mul_add]
    exact add_le_add hx.abs_value_le_two_mul ih

end TurtleGraphics.Binary64
