import TurtleGraphics.Proofs.Drawing.Numbers
import TurtleGraphics.Proofs.Run.Dump

/-!
# Runs in range

Every number in a script is finite, but what is added up over a run need not be: two turns that are
legal can be too large together. A heading or a sum is never worse than infinite, and a number that
is not finite stays so to the end of the run, so the end tells whether all was in range. It was, if
the distances and the angles that are written in the script add up to a sixteenth of the range at
most. Then the numbers of the run are dumped as numbers and drawn as numbers. Main statements:

* `Run.within_ofScript`: how far the turtle gets in a run;
* `Run.ofScript_finite`: which numbers of a run are finite.
-/

namespace TurtleGraphics

open Binary64 (IsRounding IsWithin value bound)

/-! ## What is written -/

namespace Instruction

/-- How far the instruction moves the turtle, negative for a move backward. -/
def displacement : Instruction → ℤ
  | forward d => d
  | backward d => -d
  | left _ | right _ | penColor _ | penUp | penDown => 0

variable {is : List Instruction} {cs : List Command}

theorem isRounding_displacement {i : Instruction} {c : Command} (h : i.RoundsTo c) :
    IsRounding i.displacement c.displacement := by
  have hzero : IsRounding ((0 : ℤ) : ℚ) 0 := Binary64.isRounding_ofInt 0
  cases h with
  | forward h hx =>
    rw [displacement, Int.cast_natCast]
    exact h
  | backward h hx =>
    rw [displacement, Int.cast_neg, Int.cast_natCast]
    exact h.neg
  | left h hx | right h hx | penColor color | penUp | penDown => exact hzero

/-- The magnitudes of all displacements together. -/
theorem sum_abs_displacement (is : List Instruction) :
    ((is.map displacement).map abs).sum = total .pathLength is := by
  refine sum_map_abs (fun i ↦ ?_) is
  cases i with
  | backward d => exact (Int.natAbs_neg d).trans (Int.natAbs_natCast d)
  | forward d => exact Int.natAbs_natCast d
  | left a | right a | penColor color | penUp | penDown => rfl

theorem isLegal_of_forall₂ (h : List.Forall₂ RoundsTo is cs) : ∀ c ∈ cs, c.IsLegal := by
  induction h with
  | nil => exact List.forall_mem_nil _
  | cons h _ ih => exact List.forall_mem_cons.2 ⟨h.isLegal, ih⟩

/-- The numbers that commands carry are not greater than twice those that are written. -/
theorem sum_abs_value_le {f : Instruction → ℤ} {g : Command → Float}
    (hfg : ∀ {i c}, RoundsTo i c → IsRounding (f i) (g c)) (h : List.Forall₂ RoundsTo is cs) :
    (cs.map fun c ↦ |value (g c)|).sum ≤ 2 * (((is.map f).map abs).sum : ℤ) := by
  have hrounds : List.Forall₂ IsRounding (is.map fun i ↦ (f i : ℚ)) (cs.map g) := by
    rw [List.forall₂_map_left_iff, List.forall₂_map_right_iff]
    exact h.imp fun _ _ ↦ hfg
  have hle := Binary64.sum_abs_value_le hrounds
  simpa [Int.cast_list_sum, Function.comp_def] using hle

end Instruction

namespace Run

/-- A sixteenth of the range of the floats. -/
def safeTotal : ℕ := 2 ^ 1020

theorem sixteen_mul_safeTotal : 16 * (safeTotal : ℚ) = bound := by
  have hsixteen : (16 : ℚ) = 2 ^ 4 := by norm_num
  rw [safeTotal, Nat.cast_pow, Nat.cast_ofNat, hsixteen, ← pow_add, bound, ← zpow_natCast,
    ← zpow_natCast, ← zpow_add₀ two_ne_zero]
  rfl

/-! ## Sums and cursors -/

section

variable {is : List Instruction} {cs : List Command}

theorem isFinite_total {metric : Metric} (h : List.Forall₂ Instruction.RoundsTo is cs)
    (hle : Instruction.total metric is ≤ safeTotal) (s : Cursor) :
    (Effect.total metric (Command.effects s cs)).isFinite = true := by
  have hsixteen := sixteen_mul_safeTotal
  have hbound := Binary64.bound_pos
  have hrounds : List.Forall₂ IsRounding
      ((is.filterMap (Instruction.term? metric)).map Nat.cast)
      (cs.filterMap (Command.term? metric)) := by
    rw [List.forall₂_map_left_iff]
    exact Instruction.forall₂_term? metric h
  have hterms := Binary64.sum_abs_value_le hrounds
  have hcast : (((is.filterMap (Instruction.term? metric)).map (Nat.cast : ℕ → ℚ)).map abs).sum =
      Instruction.total metric is := by
    rw [Instruction.total, Nat.cast_list_sum, List.map_map]
    exact congrArg List.sum (List.map_congr_left fun n _ ↦ Nat.abs_cast n)
  have hle : (Instruction.total metric is : ℚ) ≤ safeTotal := Nat.cast_le.2 hle
  have hzero : IsWithin 0 0 := .zero le_rfl
  rw [hcast] at hterms
  rw [Effect.total_effects]
  refine (Binary64.isWithin_foldl_add (fun x hx ↦ ?_) hzero (by linarith)).isFinite
  obtain ⟨c, hc, hx⟩ := List.mem_filterMap.1 hx
  exact ((Instruction.isLegal_of_forall₂ h c hc).term hx).1

/-- What the commands add to a heading or a coordinate is at most twice what is written. -/
theorem sum_le_two_mul_total {metric : Metric} {f : Instruction → ℤ} {g : Command → Float}
    (hfg : ∀ {i c}, Instruction.RoundsTo i c → IsRounding (f i) (g c))
    (hf : ∀ is, ((is.map f).map abs).sum = Instruction.total metric is)
    (h : List.Forall₂ Instruction.RoundsTo is cs) :
    (cs.map fun c ↦ |value (g c)|).sum ≤ 2 * Instruction.total metric is := by
  have hsum := Instruction.sum_abs_value_le hfg h
  rwa [hf, Int.cast_natCast] at hsum

theorem sum_abs_headingDelta_le (h : List.Forall₂ Instruction.RoundsTo is cs) :
    (cs.map fun c ↦ |value c.headingDelta|).sum ≤ 2 * Instruction.total .totalTurns is :=
  sum_le_two_mul_total Instruction.isRounding_headingDelta Instruction.sum_abs_angle h

theorem sum_abs_displacement_le (h : List.Forall₂ Instruction.RoundsTo is cs) :
    (cs.map fun c ↦ |value c.displacement|).sum ≤ 2 * Instruction.total .pathLength is :=
  sum_le_two_mul_total Instruction.isRounding_displacement Instruction.sum_abs_displacement h

/-- Four times a safe total is in a quarter of the range. -/
theorem four_mul_total_le {metric : Metric} (h : Instruction.total metric is ≤ safeTotal) :
    4 * (Instruction.total metric is : ℚ) ≤ bound / 4 := by
  have h : (Instruction.total metric is : ℚ) ≤ safeTotal := Nat.cast_le.2 h
  linarith [sixteen_mul_safeTotal]

theorem isWithin_heading_fresh (color : String) :
    IsWithin (90 : ℕ) (Cursor.fresh color).heading := .ofNat (by decide)

theorem isNaN_heading_eq_false (h : ∀ c ∈ cs, c.IsLegal) (color : String) :
    (cs.foldl Cursor.after (.fresh color)).heading.isNaN = false := by
  rw [Cursor.heading_foldl_after]
  refine Binary64.isNaN_foldl_add_eq_false (fun x hx ↦ ?_)
    (show (90 : Float).isNaN = false by decide)
  obtain ⟨c, hc, rfl⟩ := List.mem_map.1 hx
  exact (h c hc).isFinite_headingDelta

theorem isFinite_heading (h : List.Forall₂ Instruction.RoundsTo is cs)
    (hle : Instruction.total .totalTurns is ≤ safeTotal) (color : String) :
    (cs.foldl Cursor.after (.fresh color)).heading.isFinite = true := by
  refine (Cursor.isWithin_heading_foldl_after (Instruction.isLegal_of_forall₂ h)
    (isWithin_heading_fresh color) ?_).isFinite
  push_cast
  linarith [sum_abs_headingDelta_le h, four_mul_total_le hle, Binary64.two_pow_lt_bound]

/-- The turtle is not further out than four times the distances that are written: a distance is
rounded once when it is read, and the coordinate once more when it is added. -/
theorem within_foldl_after (htrig : Binary64.BoundedTrigonometry)
    (h : List.Forall₂ Instruction.RoundsTo is cs)
    (hpath : Instruction.total .pathLength is ≤ safeTotal)
    (hturns : Instruction.total .totalTurns is ≤ safeTotal) (color : String) :
    (cs.foldl Cursor.after (.fresh color)).Within bound
      (4 * Instruction.total .pathLength is) := by
  have hbound := Binary64.two_pow_lt_bound
  have hturned := sum_abs_headingDelta_le h
  have hturned' := four_mul_total_le hturns
  have hgone := sum_abs_displacement_le h
  have hgone' := four_mul_total_le hpath
  have hzero : IsWithin 0 0 := .zero le_rfl
  have hfresh : (Cursor.fresh color).Within (90 : ℕ) 0 :=
    ⟨isWithin_heading_fresh color, hzero, hzero⟩
  refine (hfresh.foldl_after htrig (Instruction.isLegal_of_forall₂ h) ?_ ?_).mono ?_ ?_
  · push_cast
    linarith
  · linarith
  · push_cast
    linarith
  · linarith

end

/-! ## A whole run -/

theorem forall_mem_floats_iff {r : Run} {p : Float → Prop} :
    (∀ x ∈ r.floats, p x) ↔ p r.pathLength ∧ p r.totalTurns ∧
      ∀ step ∈ r.steps, p step.cursor.x ∧ p step.cursor.y ∧ p step.cursor.heading := by
  have hstep (step : Step) : (∀ x ∈ step.floats, p x) ↔
      p step.cursor.x ∧ p step.cursor.y ∧ p step.cursor.heading := by
    rw [Step.floats, List.forall_mem_cons, List.forall_mem_cons, List.forall_mem_singleton]
  rw [floats, List.forall_mem_cons, List.forall_mem_cons, List.forall_mem_flatMap]
  simp only [hstep]

/-- The numbers of a run are finite if they are so at the end. -/
theorem forall_isFinite_floats_iff (color : String) (cs : List Command) (fault : Option Fault) :
    (∀ x ∈ (ofCommands color cs fault).floats, x.isFinite = true) ↔
      (ofCommands color cs fault).pathLength.isFinite = true ∧
        (ofCommands color cs fault).totalTurns.isFinite = true ∧
          (cs.foldl Cursor.after (.fresh color)).IsFinite := by
  rw [forall_mem_floats_iff]
  refine and_congr_right fun _ ↦ and_congr_right fun _ ↦ ⟨fun h ↦ ?_, fun h step hstep ↦ ?_⟩
  · have hlast := getElem?_steps_ofCommands color fault (le_refl cs.length)
    rw [List.take_length] at hlast
    obtain ⟨hx, hy, hheading⟩ := h _ (List.mem_of_getElem? hlast)
    exact ⟨hx, hy, hheading⟩
  · obtain ⟨i, hi⟩ := exists_of_mem_steps_ofCommands hstep
    rw [← List.take_append_drop i cs, List.foldl_append, ← hi] at h
    exact ⟨h.of_foldl_after.x, h.of_foldl_after.y, h.of_foldl_after.heading⟩

theorem forall₂_roundsTo_take (script : String) (n : Nat) :
    List.Forall₂ Instruction.RoundsTo ((Instruction.ofScript script).take n)
      ((Command.ofScript script).take n) :=
  List.forall₂_take n (Instruction.forall₂_ofScript script)

/-- The turtle is nowhere in a run further out than four times the distances that are written in the
script and obeyed. -/
theorem within_ofScript (htrig : Binary64.BoundedTrigonometry) {script : String} {options : Options}
    (hpath : Instruction.total .pathLength
      ((Instruction.ofScript script).take options.maxSteps) ≤ safeTotal)
    (hturns : Instruction.total .totalTurns
      ((Instruction.ofScript script).take options.maxSteps) ≤ safeTotal)
    {step : Step} (hstep : step ∈ (ofScript script options).steps) :
    step.cursor.Within bound (4 * Instruction.total .pathLength
      ((Instruction.ofScript script).take options.maxSteps)) := by
  -- A recorded cursor is the last one of a shorter run, which has no greater totals.
  obtain ⟨i, hi⟩ := exists_of_mem_steps_ofScript hstep
  have hrounds := List.forall₂_take i (forall₂_roundsTo_take script options.maxSteps)
  generalize (Instruction.ofScript script).take options.maxSteps = is at hrounds hpath hturns ⊢
  have hle (metric : Metric) := Instruction.total_take_le metric is i
  have hgone : (Instruction.total .pathLength (is.take i) : ℚ) ≤ Instruction.total .pathLength is :=
    Nat.cast_le.2 (hle .pathLength)
  rw [hi]
  exact (within_foldl_after htrig hrounds ((hle _).trans hpath) ((hle _).trans hturns) _).mono
    le_rfl (by linarith)

/-- What of a run is in range. The sums and the headings are numbers, and everything in the run is
finite if it is so at the end. As long as the distances that are written in the script and obeyed
add up to a sixteenth of the range at most, so is the sum of them. As long as the angles do, their
sum and all headings are finite. As long as both do, and no cosine and no sine is greater than one,
all numbers are finite, each is dumped as a number and drawn as a number, and a test compares
numbers only. -/
theorem ofScript_finite (script : String) (options : Options) :
    let is := (Instruction.ofScript script).take options.maxSteps
    let r := ofScript script options
    (r.pathLength.isNaN = false ∧ r.totalTurns.isNaN = false ∧
      ∀ step ∈ r.steps, step.cursor.heading.isNaN = false) ∧
    (∃ last, r.final? = some last ∧
      ((∀ x ∈ r.floats, x.isFinite = true) ↔
        ∀ x ∈ [r.pathLength, r.totalTurns, last.x, last.y, last.heading], x.isFinite = true)) ∧
    (Instruction.total .pathLength is ≤ safeTotal → r.pathLength.isFinite = true) ∧
    (Instruction.total .totalTurns is ≤ safeTotal →
      r.totalTurns.isFinite = true ∧ ∀ step ∈ r.steps, step.cursor.heading.isFinite = true) ∧
    (Binary64.BoundedTrigonometry → Instruction.total .pathLength is ≤ safeTotal →
      Instruction.total .totalTurns is ≤ safeTotal →
        (∀ x ∈ r.floats, x.isFinite = true ∧ x.isNaN = false) ∧
        (Json.Document.ofString r.dump = .ok r.document ∧
          ∀ x ∈ r.floats, Json.Document.ofFloat x = .number (Decimal.Layout.data.text x)) ∧
        ∃ document, Xml.ofString? (Drawing.render r.steps) = some document ∧
          ∀ a ∈ document.attributes, Drawing.HasNumber a) := by
  intro is r
  have hrounds := forall₂_roundsTo_take script options.maxSteps
  have hlegal := Instruction.isLegal_of_forall₂ hrounds
  have hr : r = _ := ofScript_eq_ofStream script options
  have hsum (metric : Metric) := Effect.total_le_total metric (.fresh options.color) hlegal
    (List.prefix_refl _)
  have hpathLength (hpath : Instruction.total .pathLength is ≤ safeTotal) :
      r.pathLength.isFinite = true := by
    rw [hr]
    exact isFinite_total hrounds hpath _
  have htotalTurns (hturns : Instruction.total .totalTurns is ≤ safeTotal) :
      r.totalTurns.isFinite = true := by
    rw [hr]
    exact isFinite_total hrounds hturns _
  refine ⟨⟨?_, ?_, ?_⟩, ?_, hpathLength, fun hturns ↦ ⟨htotalTurns hturns, ?_⟩,
    fun htrig hpath hturns ↦ ?_⟩
  · rw [hr]
    exact (hsum .pathLength).1
  · rw [hr]
    exact (hsum .totalTurns).1
  · intro step hmem
    obtain ⟨i, hi⟩ := exists_of_mem_steps_ofScript hmem
    rw [hi]
    exact isNaN_heading_eq_false (fun c hc ↦ hlegal c (List.mem_of_mem_take hc)) options.color
  · refine ⟨_, by rw [hr]; exact final?_ofCommands _ _ _, ?_⟩
    rw [hr, forall_isFinite_floats_iff]
    simp only [List.forall_mem_cons, List.not_mem_nil, false_implies, implies_true, and_true]
    exact and_congr_right fun _ ↦ and_congr_right fun _ ↦
      ⟨fun h ↦ ⟨h.x, h.y, h.heading⟩, fun h ↦ ⟨h.1, h.2.1, h.2.2⟩⟩
  · intro step hmem
    obtain ⟨i, hi⟩ := exists_of_mem_steps_ofScript hmem
    rw [hi]
    exact isFinite_heading (List.forall₂_take i hrounds)
      ((Instruction.total_take_le .totalTurns is i).trans hturns) options.color
  · have hwithin : ∀ step ∈ r.steps, step.cursor.Within bound (bound / 4) := fun step hmem ↦
      (within_ofScript htrig hpath hturns hmem).mono le_rfl (four_mul_total_le hpath)
    have hfinite : ∀ x ∈ r.floats, x.isFinite = true := by
      refine forall_mem_floats_iff.2 ⟨hpathLength hpath, htotalTurns hturns, fun step hmem ↦ ?_⟩
      have hcursor := hwithin step hmem
      exact ⟨hcursor.x.isFinite, hcursor.y.isFinite, hcursor.heading.isFinite⟩
    have hbound := Binary64.bound_pos
    exact ⟨fun x hx ↦ ⟨hfinite x hx, (Binary64.isFinite_iff.1 (hfinite x hx)).1⟩,
      ⟨ofString_dump r, fun x hx ↦ if_pos (hfinite x hx)⟩,
      Drawing.exists_document_hasNumber (by linarith) (by linarith) hwithin⟩

/-- A square is far from the end of the range. If no cosine and no sine is greater than one, then
its places are as well. -/
theorem ofScript_finite_of_square :
    let r := ofScript "for i in range(4):\n  fd(100)\n  lt(90)"
    r.pathLength.isFinite = true ∧
      (r.totalTurns.isFinite = true ∧ ∀ step ∈ r.steps, step.cursor.heading.isFinite = true) ∧
      (Binary64.BoundedTrigonometry →
        (∀ x ∈ r.floats, x.isFinite = true ∧ x.isNaN = false) ∧
        (Json.Document.ofString r.dump = .ok r.document ∧
          ∀ x ∈ r.floats, Json.Document.ofFloat x = .number (Decimal.Layout.data.text x)) ∧
        ∃ document, Xml.ofString? (Drawing.render r.steps) = some document ∧
          ∀ a ∈ document.attributes, Drawing.HasNumber a) := by
  have hgone : Instruction.total .pathLength
      ((Instruction.ofScript "for i in range(4):\n  fd(100)\n  lt(90)").take 1000) ≤ safeTotal := by
    decide +kernel
  have hturned : Instruction.total .totalTurns
      ((Instruction.ofScript "for i in range(4):\n  fd(100)\n  lt(90)").take 1000) ≤ safeTotal := by
    decide +kernel
  obtain ⟨-, -, hpath, hturns, hall⟩ :=
    ofScript_finite "for i in range(4):\n  fd(100)\n  lt(90)" {}
  exact ⟨hpath hgone, hturns hturned, fun htrig ↦ hall htrig hgone hturned⟩

theorem ofFloat_eq_null {x : Float} (h : x.isFinite = false) : Json.Document.ofFloat x = .null :=
  if_neg (by rw [h]; exact Bool.false_ne_true)

/-- Two turns that are legal by themselves are too large together. Nothing is at fault, but the
heading and the sum are infinite at the end, and the sum is dumped as `null`. -/
theorem ofScript_not_finite :
    let line := "lt(" ++ toString (10 ^ 308) ++ ")"
    let r := ofScript ("\n".intercalate [line, line])
    r.fault = none ∧ r.totalTurns.isFinite = false ∧
      r.steps.map (·.cursor.heading.isFinite) = [true, true, false] ∧
      Json.Document.ofFloat r.totalTurns = .null := by
  intro line r
  let i : Instruction := .left (.ofNat (10 ^ 308))
  have hi : i.Readable := by decide +kernel
  have hwritten : i.Written line :=
    @Instruction.Written.call i "lt" '"' (by decide) (.inr rfl) nofun
  have hlisting : Program.Listing [.single i, .single i] [line, line] :=
    .cons (.single hwritten) (.cons (.single hwritten) .nil)
  have hreadable : Program.Readable [.single i, .single i] :=
    List.forall_mem_cons.2 ⟨hi, List.forall_mem_singleton.2 hi⟩
  have hr : r = ofCommands defaultColor [i.command, i.command] none :=
    ofScript_intercalate (Program.newline_notMem hlisting hreadable)
      (Program.stream_listing hlisting hreadable).1 {}
  have hturns : r.totalTurns.isFinite = false := by rw [hr]; decide +kernel
  exact ⟨by rw [hr]; rfl, hturns, by rw [hr]; decide +kernel, ofFloat_eq_null hturns⟩

end Run

end TurtleGraphics
