import Mathlib.Algebra.BigOperators.Ring.Finset
import TurtleGraphics.Level
import TurtleGraphics.Proofs.Run.Pen
import TurtleGraphics.Proofs.Run.Sums

/-!
# Exact sums

As long as the whole numbers that are written in a script add up to 53 bits at most, no addition
rounds anything: the sums over a run are the exact ones, and so is the heading at every step. A goal
that asks for an exact number of degrees then asks for an equality of whole numbers. Main statement:
`Run.ofScript_exact`.
-/

namespace TurtleGraphics

open Binary64 (IsRounding value)

/-! ## Exact floats -/

namespace Binary64

/-- Whether the float is the one that stands for the whole number. -/
structure IsExact (n : ℤ) (x : Float) : Prop where
  value_eq : value x = n
  eq_ofInt : x = .ofInt n

theorem ofInt_ne_neg_zero {n : ℤ} (h : |n| ≤ 2 ^ 53) : Float.ofInt n ≠ -0 := by
  intro hzero
  have hvalue := value_ofInt h
  rw [hzero, value_neg, value_zero, neg_zero] at hvalue
  have hn : n = 0 := by exact_mod_cast hvalue.symm
  subst hn
  exact absurd hzero (by decide)

/-- A float other than the negative zero is exact if it stands for a whole number of 53 bits. -/
theorem isExact_of_value_eq {n : ℤ} {x : Float} (hx : x.isNaN = false) (hzero : x ≠ -0)
    (h : |n| ≤ 2 ^ 53) (hvalue : value x = n) : IsExact n x :=
  ⟨hvalue, eq_of_value_eq hx (isRounding_ofInt n).isNaN_eq_false hzero (ofInt_ne_neg_zero h)
    (hvalue.trans (value_ofInt h).symm)⟩

theorem foldl_add_ne_neg_zero {s : Float} (h : s ≠ -0) (xs : List Float) :
    xs.foldl (· + ·) s ≠ -0 := by
  induction xs generalizing s with
  | nil => exact h
  | cons x xs ih => exact ih fun hadd ↦ h (add_eq_neg_zero hadd).1

/-- Whole numbers of 53 bits at most, added up one after the other, give the exact sum. -/
theorem isExact_foldl_add {m : ℤ} {s : Float} {ns : List ℤ} {xs : List Float}
    (h : List.Forall₂ (fun n x ↦ IsRounding ((n : ℤ) : ℚ) x) ns xs) (hs : s.isFinite = true)
    (hs' : IsExact m s) (hm : |m| + (ns.map abs).sum ≤ 2 ^ 53) :
    IsExact (m + ns.sum) (xs.foldl (· + ·) s) := by
  obtain ⟨hfinite, hvalue⟩ := value_foldl_add h hs hs'.value_eq hm
  have hnonneg : 0 ≤ (ns.map abs).sum := List.sum_nonneg (by simp)
  have hzero : s ≠ -0 := hs'.eq_ofInt ▸ ofInt_ne_neg_zero (by linarith)
  refine isExact_of_value_eq (isFinite_iff.1 hfinite).1 (foldl_add_ne_neg_zero hzero xs) ?_ hvalue
  have hsum : |ns.sum| ≤ (ns.map abs).sum := by
    simpa using Multiset.abs_sum_le_sum_abs (s := (ns : Multiset ℤ))
  exact (abs_add_le _ _).trans (by linarith)

theorem IsExact.isNaN_eq_false {n : ℤ} {x : Float} (h : IsExact n x) : x.isNaN = false := by
  rw [h.eq_ofInt]
  exact (isRounding_ofInt n).isNaN_eq_false

/-- An exact float below the bound is equal only to the float of the same whole number, since no
greater one is rounded down beyond the bound. -/
theorem IsExact.beq_ofInt {m : ℤ} {x : Float} (h : IsExact m x) (hm : |m| < 2 ^ 53) (n : ℤ) :
    (x == .ofInt n) = decide (m = n) := by
  have hn := isRounding_ofInt n
  have hbound : |(2 ^ 53 : ℚ)| ≤ bound := by
    rw [abs_of_pos (by positivity)]
    exact two_pow_lt_bound.le
  have hrep := isRepresentable_two_pow
  rw [Bool.eq_iff_iff, beq_iff_value_eq h.isNaN_eq_false hn.isNaN_eq_false, h.value_eq,
    decide_eq_true_iff]
  constructor
  · intro hvalue
    obtain ⟨hlow, hhigh⟩ := abs_lt.1 hm
    have hlow' : (-2 ^ 53 : ℚ) < m := by exact_mod_cast hlow
    have hhigh' : (m : ℚ) < 2 ^ 53 := by exact_mod_cast hhigh
    by_contra hne
    obtain hle | hlt := le_or_gt |n| (2 ^ 53)
    · rw [value_ofInt hle] at hvalue
      exact hne (by exact_mod_cast hvalue)
    · obtain hlt | hlt := lt_abs.1 hlt
      · have hge := hn.le_value hrep hbound (by exact_mod_cast hlt.le)
        linarith
      · have hge := hn.value_le hrep.neg (by rwa [abs_neg])
          (by have : (2 ^ 53 : ℚ) ≤ -n := by exact_mod_cast hlt.le
              linarith)
        linarith
  · rintro rfl
    exact (value_ofInt hm.le).symm

end Binary64

/-! ## Headings -/

/-- How far the instruction turns the turtle counter-clockwise. -/
def Instruction.angle : Instruction → ℤ
  | left a => a
  | right a => -a
  | forward _ | backward _ | penColor _ | penUp | penDown => 0

/-- What the command adds to the heading, wherever the turtle is. -/
def Command.headingDelta : Command → Float
  | left a => a
  | right a => -a
  | forward _ | backward _ | penColor _ | penUp | penDown => 0

theorem Cursor.heading_after (s : Cursor) (c : Command) :
    (s.after c).heading = s.heading + c.headingDelta := by
  cases c with
  | _ => rfl

theorem Cursor.heading_foldl_after (s : Cursor) (cs : List Command) :
    (cs.foldl Cursor.after s).heading =
      (cs.map Command.headingDelta).foldl (· + ·) s.heading := by
  induction cs generalizing s with
  | nil => rfl
  | cons c cs ih => rw [List.foldl_cons, ih, heading_after, List.map_cons, List.foldl_cons]

namespace Instruction

variable {is : List Instruction} {cs : List Command}

theorem isRounding_headingDelta {i : Instruction} {c : Command} (h : i.RoundsTo c) :
    IsRounding i.angle c.headingDelta := by
  have hzero : IsRounding ((0 : ℤ) : ℚ) 0 := Binary64.isRounding_ofInt 0
  cases h with
  | left h hx => exact h
  | right h hx =>
    rw [angle, Int.cast_neg]
    exact h.neg
  | forward h hx | backward h hx | penColor color | penUp | penDown => exact hzero

theorem forall₂_headingDelta (h : List.Forall₂ RoundsTo is cs) :
    List.Forall₂ (fun n x ↦ IsRounding ((n : ℤ) : ℚ) x) (is.map angle)
      (cs.map Command.headingDelta) := by
  rw [List.forall₂_map_left_iff, List.forall₂_map_right_iff]
  exact h.imp fun _ _ ↦ isRounding_headingDelta

/-- Whether both add nothing, or the one what the other adds, rounded. -/
theorem RoundsTo.term?_cases {i : Instruction} {c : Command} (h : i.RoundsTo c) (metric : Metric) :
    (i.term? metric = none ∧ c.term? metric = none) ∨
      ∃ n x, i.term? metric = some n ∧ c.term? metric = some x ∧ IsRounding n x := by
  have habs {q : ℚ} {x : Float} (hx : IsRounding q x) {n : ℕ} (hn : |q| = n) :
      IsRounding n x.abs := hn ▸ hx.abs
  have hangle (a : ℤ) : |(a : ℚ)| = a.natAbs := by
    rw [Nat.cast_natAbs, Int.cast_abs]
  cases metric with
  | pathLength =>
    cases h with
    | forward h hx => exact .inr ⟨_, _, rfl, rfl, habs h (Nat.abs_cast _)⟩
    | backward h hx =>
      exact .inr ⟨_, _, rfl, rfl, habs h.neg ((abs_neg _).trans (Nat.abs_cast _))⟩
    | _ => exact .inl ⟨rfl, rfl⟩
  | totalTurns =>
    cases h with
    | left h hx => exact .inr ⟨_, _, rfl, rfl, habs h (hangle _)⟩
    | right h hx => exact .inr ⟨_, _, rfl, rfl, habs h.neg ((abs_neg _).trans (hangle _))⟩
    | _ => exact .inl ⟨rfl, rfl⟩

/-- The terms of the commands are those of the instructions, rounded. -/
theorem forall₂_term? (metric : Metric) (h : List.Forall₂ RoundsTo is cs) :
    List.Forall₂ (fun n x ↦ IsRounding ((n : ℕ) : ℚ) x)
      (is.filterMap (term? metric)) (cs.filterMap (Command.term? metric)) := by
  induction h with
  | nil => exact .nil
  | cons h _ ih =>
    obtain ⟨hi, hc⟩ | ⟨n, x, hi, hc, hx⟩ := h.term?_cases metric
    · rwa [List.filterMap_cons_none hi, List.filterMap_cons_none hc]
    · rw [List.filterMap_cons_some hi, List.filterMap_cons_some hc]
      exact .cons hx ih

theorem total_append (metric : Metric) (is js : List Instruction) :
    total metric (is ++ js) = total metric is + total metric js := by
  rw [total, List.filterMap_append, List.sum_append]
  rfl

/-- The magnitudes of numbers that are the terms of a sum. -/
theorem sum_map_abs {metric : Metric} {f : Instruction → ℤ}
    (h : ∀ i, (f i).natAbs = (i.term? metric).getD 0) (is : List Instruction) :
    ((is.map f).map abs).sum = total metric is := by
  induction is with
  | nil => rfl
  | cons i is ih =>
    rw [List.map_cons, List.map_cons, List.sum_cons, ih, Int.abs_eq_natAbs, h i, total, total]
    cases hterm : i.term? metric with
    | none => simp [hterm]
    | some n => simp [hterm]

/-- The magnitudes of all angles together. -/
theorem sum_abs_angle (is : List Instruction) :
    ((is.map angle).map abs).sum = total .totalTurns is := by
  refine sum_map_abs (fun i ↦ ?_) is
  cases i with
  | right a => exact Int.natAbs_neg a
  | left a | forward d | backward d | penColor color | penUp | penDown => rfl

end Instruction

/-! ## Exact runs -/

namespace Effect

/-- A sum is exact as long as the exact sum is not too large. -/
theorem isExact_total {metric : Metric} {is : List Instruction} {cs : List Command}
    (h : List.Forall₂ Instruction.RoundsTo is cs) (hle : Instruction.total metric is ≤ 2 ^ 53)
    (s : Cursor) : Binary64.IsExact (Instruction.total metric is)
      (Effect.total metric (Command.effects s cs)) := by
  have hterms : List.Forall₂ (fun n x ↦ IsRounding ((n : ℤ) : ℚ) x)
      ((is.filterMap (Instruction.term? metric)).map Nat.cast)
      (cs.filterMap (Command.term? metric)) := by
    rw [List.forall₂_map_left_iff]
    exact Instruction.forall₂_term? metric h
  have hcast : ((is.filterMap (Instruction.term? metric)).map (Nat.cast : ℕ → ℤ)).sum =
      Instruction.total metric is := by
    rw [Instruction.total, Nat.cast_list_sum]
  rw [total_effects, ← hcast, ← zero_add (List.sum _)]
  refine Binary64.isExact_foldl_add hterms rfl ⟨by simpa using Binary64.value_zero, rfl⟩ ?_
  have habs : (abs ∘ Nat.cast : ℕ → ℤ) = Nat.cast := funext Nat.abs_cast
  rw [abs_zero, zero_add, List.map_map, habs, hcast]
  exact_mod_cast hle

end Effect

namespace Cursor

/-- The heading is exact as long as the magnitudes of the angles are not too large. -/
theorem isExact_heading {is : List Instruction} {cs : List Command}
    (h : List.Forall₂ Instruction.RoundsTo is cs)
    (hle : 90 + Instruction.total .totalTurns is ≤ 2 ^ 53) (color : String) :
    Binary64.IsExact (90 + (is.map Instruction.angle).sum)
      (cs.foldl Cursor.after (.fresh color)).heading := by
  rw [heading_foldl_after]
  refine Binary64.isExact_foldl_add (Instruction.forall₂_headingDelta h)
    (show (90 : Float).isFinite = true by decide) ⟨?_, rfl⟩ ?_
  · exact Binary64.value_ofNat (n := 90) (by decide)
  · rw [Instruction.sum_abs_angle]
    exact_mod_cast hle

end Cursor

namespace Instruction

theorem total_take_le (metric : Metric) (is : List Instruction) (i : Nat) :
    total metric (is.take i) ≤ total metric is := by
  have happend := total_append metric (is.take i) (is.drop i)
  rw [List.take_append_drop] at happend
  omega

/-- The angles together turn no further than their magnitudes do. -/
theorem abs_sum_angle_le (is : List Instruction) :
    |(is.map angle).sum| ≤ total .totalTurns is := by
  rw [← sum_abs_angle]
  simpa using Multiset.abs_sum_le_sum_abs (s := (is.map angle : Multiset ℤ))

end Instruction

/-- An exact heading is not further from straight up than a bound on the exact angle. -/
theorem Binary64.IsExact.abs_sub_le {h t : Float} {a : ℤ} {T : ℕ} (hh : IsExact (90 + a) h)
    (ht : IsExact T t) (ha : |a| ≤ T) (hT : 90 + T ≤ 2 ^ 53) : (h - 90).abs ≤ t := by
  have ha' : |a| ≤ 2 ^ 53 := by omega
  have hfinite : h.isFinite = true :=
    isFinite_iff.2 ⟨hh.isNaN_eq_false, by
      rw [hh.value_eq]
      exact abs_intCast_lt_bound ((abs_add_le _ _).trans (by rw [abs_of_pos (by decide)]; omega))⟩
  have hsub := isRounding_sub hfinite (show (90 : Float).isFinite = true by decide)
  have hninety : value 90 = 90 := value_ofNat (n := 90) (by decide)
  have hdiff : value h - value 90 = a := by
    rw [hh.value_eq, hninety, Int.cast_add, Int.cast_ofNat, add_sub_cancel_left]
  rw [hdiff] at hsub
  rw [le_iff_value_le ((isNaN_abs _).trans hsub.isNaN_eq_false) ht.isNaN_eq_false, value_abs,
    hsub.value_eq (.intCast ha') (abs_intCast_lt_bound ha').le, ht.value_eq]
  exact_mod_cast ha

/-- Whether the total is that of the goal, apart from what else the goal asks for. -/
theorem Goal.isMet_exactTurns (g : Goal) (turns : Float) (last : Cursor)
    (pathLength totalTurns : Float) :
    { g with exactTurns := some turns }.isMet last pathLength totalTurns =
      ((totalTurns == turns) &&
        { g with exactTurns := none }.isMet last pathLength totalTurns) := by
  simp only [isMet, Option.all_some, Option.all_none, Bool.and_true]
  rw [Bool.and_assoc, Bool.and_assoc, Bool.and_left_comm, Bool.and_assoc]

namespace Run

/-- If the distances and the angles that are written in a script and obeyed add up to 53 bits at
most, the angles with the 90 degrees of the start, then the sums of the run are the exact sums and
every heading is the exact one. So no heading is further from straight up than the turtle has turned
by then, and a goal that asks for a whole number of degrees asks for the exact sum. -/
theorem ofScript_exact {script : String} {options : Options}
    (hpath : Instruction.total .pathLength
      ((Instruction.ofScript script).take options.maxSteps) ≤ 2 ^ 53)
    (hturns : 90 + Instruction.total .totalTurns
      ((Instruction.ofScript script).take options.maxSteps) ≤ 2 ^ 53) :
    let is := (Instruction.ofScript script).take options.maxSteps
    let r := ofScript script options
    Binary64.IsExact (Instruction.total .pathLength is) r.pathLength ∧
    Binary64.IsExact (Instruction.total .totalTurns is) r.totalTurns ∧
    r.steps.length = is.length + 1 ∧
    (∀ i ≤ is.length, ∃ s, r.steps[i]? = some ⟨i, s⟩ ∧
      Binary64.IsExact (90 + ((is.take i).map Instruction.angle).sum) s.heading ∧
      (s.heading - 90).abs ≤ (ofScript script { options with maxSteps := i }).totalTurns ∧
      (s.heading - 90).abs ≤ r.totalTurns) ∧
    ∀ (g : Goal) (last : Cursor) (n : ℤ),
      { g with exactTurns := some (.ofInt n) }.isMet last r.pathLength r.totalTurns =
        (decide ((Instruction.total .totalTurns is : ℤ) = n) &&
          { g with exactTurns := none }.isMet last r.pathLength r.totalTurns) := by
  intro is r
  have hturns : 90 + Instruction.total .totalTurns is ≤ 2 ^ 53 := hturns
  have hrounds : List.Forall₂ Instruction.RoundsTo is
      ((Command.ofScript script).take options.maxSteps) :=
    List.forall₂_take _ (Instruction.forall₂_ofScript script)
  have hlength := hrounds.length_eq
  have hr : r = _ := ofScript_eq_ofStream script options
  have htotal : Binary64.IsExact (Instruction.total .totalTurns is) r.totalTurns := by
    rw [hr]
    exact Effect.isExact_total hrounds (by omega) _
  refine ⟨?_, htotal, ?_, fun i hi ↦ ?_, fun g last n ↦ ?_⟩
  · rw [hr]
    exact Effect.isExact_total hrounds hpath _
  · rw [hr, length_steps_ofCommands, hlength]
  · have htake := List.forall₂_take i hrounds
    have hle := Instruction.total_take_le .totalTurns is i
    have hheading := Cursor.isExact_heading htake (by omega) options.color
    refine ⟨_, by rw [hr]; exact getElem?_steps_ofCommands _ _ (hlength ▸ hi), hheading, ?_, ?_⟩
    · -- The run under the ceiling `i` obeys just these commands.
      have hcut : is.take i = (Instruction.ofScript script).take i := by
        rw [List.take_take, min_eq_left (hi.trans (List.length_take_le _ _))]
      have hsofar := @Effect.isExact_total .totalTurns _ _
        (List.forall₂_take i (Instruction.forall₂_ofScript script)) (by rw [← hcut]; omega)
        (.fresh options.color)
      rw [ofScript_eq_ofStream]
      rw [← hcut] at hsofar
      exact hheading.abs_sub_le hsofar (Instruction.abs_sum_angle_le _) (by omega)
    · exact hheading.abs_sub_le htotal
        ((Instruction.abs_sum_angle_le _).trans (by exact_mod_cast hle)) hturns
  · rw [Goal.isMet_exactTurns, htotal.beq_ofInt (by rw [Nat.abs_cast]; omega)]

/-- Angles of both signs, a loop and a move backward. The turtle has turned by 150 degrees in all
and faces 120 degrees at the end. -/
theorem ofScript_exact_in_loop :
    let script := "lt(60)\nfor i in range(3):\n  bk(7)\n  rt(20)\nleft(-0)\nrt(-30)"
    let is := (Instruction.ofScript script).take 100
    let r := ofScript script { maxSteps := 100 }
    (Instruction.total .pathLength is = 21 ∧ Instruction.total .totalTurns is = 150) ∧
      Binary64.IsExact 21 r.pathLength ∧ Binary64.IsExact 150 r.totalTurns ∧
      ∃ s, r.steps[9]? = some ⟨9, s⟩ ∧ Binary64.IsExact 120 s.heading := by
  intro script is r
  have hpath : Instruction.total .pathLength is = 21 := by decide +kernel
  have hturns : Instruction.total .totalTurns is = 150 := by decide +kernel
  have hangle : 90 + ((is.take 9).map Instruction.angle).sum = 120 := by decide +kernel
  obtain ⟨hexact, hexact', -, hsteps, -⟩ :=
    @ofScript_exact script { maxSteps := 100 }
      (show Instruction.total .pathLength is ≤ 2 ^ 53 by omega)
      (show 90 + Instruction.total .totalTurns is ≤ 2 ^ 53 by omega)
  obtain ⟨s, hs, hheading, -⟩ := hsteps 9 (by decide +kernel)
  change Binary64.IsExact (Instruction.total .pathLength is) r.pathLength at hexact
  change Binary64.IsExact (Instruction.total .totalTurns is) r.totalTurns at hexact'
  change Binary64.IsExact (90 + ((is.take 9).map Instruction.angle).sum) s.heading at hheading
  rw [hpath] at hexact
  rw [hturns] at hexact'
  rw [hangle] at hheading
  exact ⟨⟨hpath, hturns⟩, hexact, hexact', s, hs, hheading⟩

end Run

end TurtleGraphics
