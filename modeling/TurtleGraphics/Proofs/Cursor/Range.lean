import TurtleGraphics.Proofs.Run.Exact

/-!
# How far the turtle gets

A command changes the heading by its angle and the coordinates by no more than its distance, since
no cosine and no sine is greater than one. Every addition rounds, but to a number that is not
further away than the other term. So the turtle is never further out than twice the way it went, and
never turned further than twice the angles it turned by. Main statements:

* `Cursor.Within.after`: what one command preserves;
* `Cursor.Within.foldl_after`: what a list of commands preserves;
* `Cursor.IsFinite.of_foldl_after`: what is not finite never becomes so again.
-/

namespace TurtleGraphics

open Binary64 (IsWithin value bound)

/-! ## Floats of magnitude one at most -/

namespace Binary64

/-- What is assumed of the cosine and the sine, which are not defined in terms of anything else:
those of a finite angle are numbers from -1 to 1. -/
def BoundedTrigonometry : Prop :=
  ∀ x : Float, x.isFinite = true → x.cos.abs ≤ 1 ∧ x.sin.abs ≤ 1

theorem isFinite_zero : (0 : Float).isFinite = true := by decide

theorem isNaN_eq_false_of_le {x y : Float} (h : x ≤ y) : x.isNaN = false := by
  change decide (x.toModel.unpack.le y.toModel.unpack = true) = true at h
  rw [decide_eq_true_iff, Float.Model.UnpackedFloat.le] at h
  rw [isNaN_eq_false_iff]
  intro hx
  rw [hx] at h
  cases h

/-- A float of magnitude one at most is finite. -/
theorem isWithin_one {c : Float} (h : c.abs ≤ 1) : IsWithin 1 c := by
  have hone : value 1 = 1 := (value_ofNat (n := 1) (by decide)).trans Nat.cast_one
  have hnan := isNaN_eq_false_of_le h
  have hle := (le_iff_value_le hnan rfl).1 h
  rw [value_abs, hone] at hle
  rw [isNaN_abs] at hnan
  refine ⟨isFinite_iff.2 ⟨hnan, hle.trans_lt ?_⟩, hle⟩
  simpa using abs_intCast_lt_bound (n := 1) (by decide)

/-- What is no greater than a finite float is rounded to a float that is no greater. -/
theorem IsRounding.isWithin {q : ℚ} {x y : Float} (h : IsRounding q y) (hx : x.isFinite = true)
    (hq : |q| ≤ |value x|) : IsWithin |value x| y := by
  have hvalue := h.abs_value_le (isRepresentable_value x).abs hq
  exact ⟨h.isFinite (hvalue.trans_lt (isFinite_iff.1 hx).2), hvalue⟩

/-- A factor of magnitude one at most makes nothing greater. -/
theorem isWithin_mul {c x : Float} (hc : c.abs ≤ 1) (hx : x.isFinite = true) :
    IsWithin |value x| (c * x) := by
  have hc := isWithin_one hc
  refine (isRounding_mul hc.isFinite hx).isWithin hx ?_
  rw [abs_mul]
  exact mul_le_of_le_one_left (abs_nonneg _) hc.abs_value_le

theorem isFinite_mul_radiansPerDegree {x : Float} (hx : x.isFinite = true) :
    (x * radiansPerDegree).isFinite = true := by
  have hone : IsWithin 1 radiansPerDegree := isWithin_one (by decide +kernel)
  refine ((isRounding_mul hx hone.isFinite).isWithin hx ?_).isFinite
  rw [abs_mul]
  exact mul_le_of_le_one_right (abs_nonneg _) hone.abs_value_le

end Binary64

/-! ## One command -/

/-- How far the command moves the turtle, negative for a move backward. -/
def Command.displacement : Command → Float
  | forward d => d
  | backward d => -d
  | left _ | right _ | penColor _ | penUp | penDown => 0

theorem Command.IsLegal.isFinite_displacement {c : Command} (h : c.IsLegal) :
    c.displacement.isFinite = true := by
  cases c with
  | forward d => exact h.1
  | backward d => exact (Binary64.isFinite_neg d).trans h.1
  | left _ | right _ | penColor _ | penUp | penDown => exact Binary64.isFinite_zero

theorem Command.IsLegal.isFinite_headingDelta {c : Command} (h : c.IsLegal) :
    c.headingDelta.isFinite = true := by
  cases c with
  | left a => exact h
  | right a => exact (Binary64.isFinite_neg a).trans h
  | forward _ | backward _ | penColor _ | penUp | penDown => exact Binary64.isFinite_zero

/-- A command moves the turtle along neither axis further than it moves it. -/
theorem Command.isWithin_effect (htrig : Binary64.BoundedTrigonometry) {s : Cursor}
    (hs : s.heading.isFinite = true) {c : Command} (hc : c.IsLegal) :
    IsWithin |value c.displacement| (c.effect s).dx ∧
      IsWithin |value c.displacement| (c.effect s).dy := by
  obtain ⟨hcos, hsin⟩ := htrig _ (Binary64.isFinite_mul_radiansPerDegree hs)
  have hdisplacement := hc.isFinite_displacement
  cases c with
  | forward d | backward d =>
    exact ⟨Binary64.isWithin_mul hcos hdisplacement, Binary64.isWithin_mul hsin hdisplacement⟩
  | left _ | right _ | penColor _ | penUp | penDown =>
    exact ⟨⟨hdisplacement, le_rfl⟩, ⟨hdisplacement, le_rfl⟩⟩

/-! ## Many commands -/

namespace Cursor

/-- Whether the heading and the coordinates are finite, and not further from zero than these two
numbers. -/
structure Within (s : Cursor) (turned gone : ℚ) : Prop where
  heading : IsWithin turned s.heading
  x : IsWithin gone s.x
  y : IsWithin gone s.y

variable {s : Cursor} {turned gone : ℚ} {cs : List Command}

theorem Within.mono {turned' gone' : ℚ} (h : s.Within turned gone) (hturned : turned ≤ turned')
    (hgone : gone ≤ gone') : s.Within turned' gone' :=
  ⟨h.heading.mono hturned, h.x.mono hgone, h.y.mono hgone⟩

/-- What one command preserves. -/
theorem Within.after (htrig : Binary64.BoundedTrigonometry) (h : s.Within turned gone)
    {c : Command} (hc : c.IsLegal) (hturned : turned + 2 * |value c.headingDelta| < bound)
    (hgone : gone + 2 * |value c.displacement| < bound) :
    (s.after c).Within (turned + 2 * |value c.headingDelta|)
      (gone + 2 * |value c.displacement|) := by
  obtain ⟨hdx, hdy⟩ := Command.isWithin_effect htrig h.heading.isFinite hc
  constructor
  · rw [heading_after]
    exact h.heading.add ⟨hc.isFinite_headingDelta, le_rfl⟩ hturned
  · exact h.x.add hdx hgone
  · exact h.y.add hdy hgone

/-- What a list of commands preserves. -/
theorem Within.foldl_after (htrig : Binary64.BoundedTrigonometry) (hcs : ∀ c ∈ cs, c.IsLegal)
    (h : s.Within turned gone)
    (hturned : turned + 2 * (cs.map fun c ↦ |value c.headingDelta|).sum < bound)
    (hgone : gone + 2 * (cs.map fun c ↦ |value c.displacement|).sum < bound) :
    (cs.foldl Cursor.after s).Within
      (turned + 2 * (cs.map fun c ↦ |value c.headingDelta|).sum)
      (gone + 2 * (cs.map fun c ↦ |value c.displacement|).sum) := by
  induction cs generalizing s turned gone with
  | nil => simpa using h
  | cons c cs ih =>
    obtain ⟨hc, hcs⟩ := List.forall_mem_cons.1 hcs
    have hnonneg (f : Command → Float) : 0 ≤ (cs.map fun c ↦ |value (f c)|).sum :=
      List.sum_nonneg (by simp)
    rw [List.map_cons, List.sum_cons, mul_add, ← add_assoc] at hturned hgone
    rw [List.map_cons, List.sum_cons, mul_add, ← add_assoc, List.map_cons, List.sum_cons, mul_add,
      ← add_assoc, List.foldl_cons]
    exact ih hcs (h.after htrig hc (by linarith [hnonneg Command.headingDelta])
      (by linarith [hnonneg Command.displacement])) hturned hgone

/-- The heading is in range whatever the cosines and the sines are. -/
theorem isWithin_heading_foldl_after (hcs : ∀ c ∈ cs, c.IsLegal) (h : IsWithin turned s.heading)
    (hturned : turned + 2 * (cs.map fun c ↦ |value c.headingDelta|).sum < bound) :
    IsWithin (turned + 2 * (cs.map fun c ↦ |value c.headingDelta|).sum)
      (cs.foldl Cursor.after s).heading := by
  have hmap : ((cs.map Command.headingDelta).map fun x ↦ |value x|) =
      cs.map fun c ↦ |value c.headingDelta| := List.map_map
  rw [heading_foldl_after]
  rw [← hmap] at hturned ⊢
  refine Binary64.isWithin_foldl_add (fun x hx ↦ ?_) h hturned
  obtain ⟨c, hc, rfl⟩ := List.mem_map.1 hx
  exact (hcs c hc).isFinite_headingDelta

/-! ## Numbers that are not finite -/

/-- Whether all numbers of the cursor are finite. -/
structure IsFinite (s : Cursor) : Prop where
  x : s.x.isFinite = true
  y : s.y.isFinite = true
  heading : s.heading.isFinite = true

/-- No command makes a number finite that is not. -/
theorem IsFinite.of_after {c : Command} (h : (s.after c).IsFinite) : s.IsFinite where
  x := by
    by_contra hs
    exact Binary64.not_isFinite_add hs _ h.x
  y := by
    by_contra hs
    exact Binary64.not_isFinite_add hs _ h.y
  heading := by
    by_contra hs
    exact Binary64.not_isFinite_add hs _ h.heading

theorem IsFinite.of_foldl_after (h : (cs.foldl Cursor.after s).IsFinite) : s.IsFinite := by
  induction cs generalizing s with
  | nil => exact h
  | cons c cs ih => exact (ih h).of_after

end Cursor

end TurtleGraphics
