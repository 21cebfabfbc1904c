import TurtleGraphics.Proofs.Binary64.Sum
import TurtleGraphics.Proofs.Run.Ceiling
import TurtleGraphics.Proofs.Script.Written

/-!
# The sums over a run

A sum over a run is made of the magnitudes of the numbers that its commands carry. Those are finite,
and the rounded magnitudes of what is written in the script. So the sums start at zero and never get
less, however the signs are and even when they become infinite. Main statements:

* `Effect.total_effects`: a sum is made of the terms of the commands, wherever the turtle is;
* `Command.isLegal_of_statement`: the numbers of a command are finite, and a distance is not
  negative;
* `Run.sums_never_decrease`: the sums of a run never get less under a higher ceiling.
-/

namespace TurtleGraphics

open Binary64 (IsRounding value)

/-! ## Terms -/

/-- What the command adds to the sum, if anything. -/
def Command.term? : Metric → Command → Option Float
  | .pathLength, forward d => some d.abs
  | .pathLength, backward d => some (-d).abs
  | .totalTurns, left a => some a.abs
  | .totalTurns, right a => some (-a).abs
  | _, _ => none

/-- What the instruction adds to the exact sum, if anything. -/
def Instruction.term? : Metric → Instruction → Option Nat
  | .pathLength, forward d | .pathLength, backward d => some d
  | .totalTurns, left a | .totalTurns, right a => some a.natAbs
  | _, _ => none

/-- The exact sum over the instructions. -/
def Instruction.total (metric : Metric) (is : List Instruction) : Nat :=
  (is.filterMap (term? metric)).sum

/-- A sum is made of the terms of the commands, wherever the turtle is. -/
theorem Effect.total_effects (metric : Metric) (s : Cursor) (cs : List Command) :
    Effect.total metric (Command.effects s cs) =
      (cs.filterMap (Command.term? metric)).foldl (· + ·) 0 := by
  rw [Effect.total]
  congr 1
  induction cs generalizing s with
  | nil => rfl
  | cons c cs ih =>
    rw [Command.effects, List.filterMap_cons, ← ih (s.after c)]
    cases metric <;> cases c <;> rfl

/-! ## Commands of a script -/

/-- Whether the number that the command carries is finite, and not negative if it is a distance. -/
def Command.IsLegal : Command → Prop
  | forward d | backward d => d.isFinite = true ∧ 0 ≤ d
  | left a | right a => a.isFinite = true
  | penColor _ | penUp | penDown => True

theorem Instruction.RoundsTo.isLegal {i : Instruction} {c : Command} (h : i.RoundsTo c) :
    c.IsLegal := by
  cases h with
  | forward h hx | backward h hx =>
    exact ⟨hx, (Binary64.zero_le_iff h.isNaN_eq_false).2 (h.nonneg (Nat.cast_nonneg _))⟩
  | left h hx | right h hx => exact hx
  | penColor color | penUp | penDown => trivial

theorem Command.isLegal_of_statement {line : Nat} {text : String} {c : Command}
    (h : Statement.ofString line text = .ok (.command c)) : c.IsLegal :=
  (Line.roundsTo_instruction (l := ⟨line, 0, text⟩) h).isLegal

theorem Command.isLegal_of_mem_ofScript {script : String} {c : Command}
    (h : c ∈ Command.ofScript script) : c.IsLegal := by
  obtain ⟨l, -, hl⟩ := exists_line_of_mem_ofScript h
  exact isLegal_of_statement hl

/-- What a command adds to a sum is finite and not negative. -/
theorem Command.IsLegal.term {metric : Metric} {c : Command} (h : c.IsLegal) {x : Float}
    (hx : c.term? metric = some x) : x.isFinite = true ∧ 0 ≤ value x := by
  have habs {y : Float} (hy : y.isFinite = true) : y.abs.isFinite = true ∧ 0 ≤ value y.abs :=
    ⟨(Binary64.isFinite_abs y).trans hy, by rw [Binary64.value_abs]; exact abs_nonneg _⟩
  have hneg {y : Float} (hy : y.isFinite = true) : (-y).isFinite = true :=
    (Binary64.isFinite_neg y).trans hy
  cases metric with
  | pathLength =>
    cases c with
    | forward d =>
      cases hx
      exact habs h.1
    | backward d =>
      cases hx
      exact habs (hneg h.1)
    | _ => cases hx
  | totalTurns =>
    cases c with
    | left a =>
      cases hx
      exact habs h
    | right a =>
      cases hx
      exact habs (hneg h)
    | _ => cases hx

/-! ## Sums that never decrease -/

namespace Effect

variable (metric : Metric) (s : Cursor)

theorem total_append (cs ds : List Command) :
    Effect.total metric (Command.effects s (cs ++ ds)) =
      (ds.filterMap (Command.term? metric)).foldl (· + ·)
        (Effect.total metric (Command.effects s cs)) := by
  rw [total_effects, total_effects, List.filterMap_append, List.foldl_append]

/-- A sum is at least zero, and further commands do not lower it. -/
theorem total_le_total {cs ds : List Command} (hds : ∀ c ∈ ds, c.IsLegal) (h : cs <+: ds) :
    (Effect.total metric (Command.effects s cs)).isNaN = false ∧
      0 ≤ Effect.total metric (Command.effects s cs) ∧
        Effect.total metric (Command.effects s cs) ≤
          Effect.total metric (Command.effects s ds) := by
  obtain ⟨rest, rfl⟩ := h
  have hterms {cs' : List Command} (hcs' : cs' ⊆ cs ++ rest) :
      ∀ x ∈ cs'.filterMap (Command.term? metric), x.isFinite = true ∧ 0 ≤ value x := by
    intro x hx
    obtain ⟨c, hc, hx⟩ := List.mem_filterMap.1 hx
    exact (hds c (hcs' hc)).term hx
  have hnan {cs' : List Command} (hcs' : cs' ⊆ cs ++ rest) :
      (Effect.total metric (Command.effects s cs')).isNaN = false := by
    rw [total_effects]
    exact Binary64.isNaN_foldl_add_eq_false (fun x hx ↦ (hterms hcs' x hx).1) rfl
  have hnonneg := Binary64.value_le_value_foldl_add (s := 0)
    (hterms (List.subset_append_left _ _))
  rw [Binary64.value_zero, ← total_effects metric s] at hnonneg
  have hle := Binary64.value_le_value_foldl_add
    (s := Effect.total metric (Command.effects s cs)) (hterms (List.subset_append_right _ _))
  rw [← total_append] at hle
  have hcs := hnan (List.subset_append_left cs rest)
  exact ⟨hcs, (Binary64.zero_le_iff hcs).2 hnonneg,
    (Binary64.le_iff_value_le hcs (hnan (List.Subset.refl _))).2 hle⟩

end Effect

namespace Run

/-- The sums of a run are numbers and at least zero, and no higher ceiling lowers them. Along a run
they start at zero and never decrease from one recorded step to the next. The numbers that commands
carry are finite, and not negative for a distance. -/
theorem sums_never_decrease (script color : String) :
    (∀ j k, j ≤ k →
      let r := ofScript script { maxSteps := j, color }
      let r' := ofScript script { maxSteps := k, color }
      (r.pathLength.isNaN = false ∧ 0 ≤ r.pathLength ∧ r.pathLength ≤ r'.pathLength) ∧
        (r.totalTurns.isNaN = false ∧ 0 ≤ r.totalTurns ∧ r.totalTurns ≤ r'.totalTurns)) ∧
    (∀ ceiling,
      let obeyed := (Command.ofScript script).take ceiling
      let sum metric i := Effect.total metric (Command.effects (.fresh color) (obeyed.take i))
      let r := ofScript script { maxSteps := ceiling, color }
      (r.steps.length = obeyed.length + 1 ∧ r.pathLength = sum .pathLength obeyed.length ∧
        r.totalTurns = sum .totalTurns obeyed.length) ∧
      ∀ metric, sum metric 0 = 0 ∧ ∀ i, sum metric i ≤ sum metric (i + 1)) ∧
    ∀ line text c, Statement.ofString line text = .ok (.command c) → c.IsLegal := by
  have hlegal {k : Nat} : ∀ c ∈ (Command.ofScript script).take k, c.IsLegal :=
    fun c hc ↦ Command.isLegal_of_mem_ofScript (List.mem_of_mem_take hc)
  refine ⟨fun j k hjk ↦ ?_, fun ceiling ↦ ?_, fun line text c ↦ Command.isLegal_of_statement⟩
  · have hsum (metric : Metric) := Effect.total_le_total metric (.fresh color) hlegal
      (List.take_prefix_take_left (l := Command.ofScript script) hjk)
    simp only [ofScript_eq_ofStream]
    exact ⟨hsum .pathLength, hsum .totalTurns⟩
  · refine ⟨?_, fun metric ↦ ⟨rfl, fun i ↦ ?_⟩⟩
    · simp only [ofScript_eq_ofStream, List.take_length]
      exact ⟨length_steps_ofCommands _ _ _, rfl, rfl⟩
    · exact (Effect.total_le_total metric (.fresh color)
        (fun c hc ↦ hlegal c (List.mem_of_mem_take hc))
        (List.take_prefix_take_left (Nat.le_succ i))).2.2

end Run

end TurtleGraphics
