import TurtleGraphics.Proofs.Run.Replay

/-!
# Runs under different ceilings

A ceiling only cuts a run short. Under a lower ceiling the same script gives the first steps of the
run under a higher one, with the sums over just those steps, and a run that needs no more room than
the lower ceiling gives is the same under both. The ceiling 0 differs in one respect: no command is
obeyed, so the start alone is left of every run that obeys one. Main statement:
`Run.ofScript_of_ceiling_lt`.
-/

namespace TurtleGraphics.Run

@[simp] theorem length_steps_ofCommands (color : String) (cs : List Command)
    (fault : Option Fault) : (ofCommands color cs fault).steps.length = cs.length + 1 := by
  simp [ofCommands, Command.trace]

/-- The run that obeys the first `n` commands has the first steps of the run that obeys more. -/
theorem steps_ofCommands_take (color : String) (cs : List Command) (n : Nat)
    (fault fault' : Option Fault) :
    (ofCommands color (cs.take n) fault).steps =
      (ofCommands color cs fault').steps.take (n + 1) := by
  simp only [ofCommands, Command.trace, ← List.take_scanl]
  refine List.ext_getElem? fun i ↦ ?_
  simp only [List.getElem?_mapIdx, List.getElem?_take]
  split
  · rfl
  · rfl

/-- A run whose commands all find room under the ceiling obeys them all. -/
theorem ofScript_of_room {script color : String} {ceiling : Nat}
    (h : (Command.ofScript script).length < max ceiling 1) :
    ofScript script { maxSteps := ceiling, color } =
      ofCommands color (Command.ofScript script)
        (Event.firstFault? (Line.stream (Line.ofScript script))) := by
  have hle : (Command.ofScript script).length ≤ ceiling ∨ Command.ofScript script = [] := by
    rw [← List.length_eq_zero_iff]; omega
  rw [ofScript_eq_ofStream, if_pos h]
  rcases hle with hle | hnil
  · rw [List.take_of_length_le hle]
  · rw [hnil, List.take_nil]

/-- A run that reaches the ceiling obeys as many commands as that allows and meets no fault. -/
theorem ofScript_of_ceiling {script color : String} {ceiling : Nat}
    (h : max ceiling 1 ≤ (Command.ofScript script).length) :
    ofScript script { maxSteps := ceiling, color } =
      ofCommands color ((Command.ofScript script).take ceiling) none := by
  rw [ofScript_eq_ofStream, if_neg (Nat.not_lt.2 h)]

theorem length_steps_ofScript (script color : String) (ceiling : Nat) :
    (ofScript script { maxSteps := ceiling, color }).steps.length =
      min ceiling (Command.ofScript script).length + 1 := by
  rw [ofScript_eq_ofStream, length_steps_ofCommands, List.length_take]

/-- A lower ceiling cuts a run short: what is left are the first steps, the sums over the commands
that made them, and no fault. A run that leaves room under the lower ceiling is not cut. -/
theorem ofScript_of_ceiling_lt (script color : String) {j k : Nat} (hjk : j < k) :
    let run : Nat → Run := fun ceiling ↦ ofScript script { maxSteps := ceiling, color }
    let obeyed := (Command.ofScript script).take k
    run k = ofCommands color obeyed (run k).fault ∧
    (1 ≤ j → j < (run k).steps.length →
      (run j).steps = (run k).steps.take (j + 1) ∧
      (run j).fault = none ∧
      (run j).pathLength =
        Effect.total .pathLength (Command.effects (.fresh color) (obeyed.take j)) ∧
      (run j).totalTurns =
        Effect.total .totalTurns (Command.effects (.fresh color) (obeyed.take j))) ∧
    (1 ≤ j → (run k).steps.length ≤ j → run j = run k) ∧
    (j = 0 → (run k).steps.length = 1 → run j = run k) ∧
    (j = 0 → (run k).steps.length ≠ 1 →
      run j = { steps := [⟨0, .fresh color⟩], fault := none, pathLength := 0, totalTurns := 0 }) ∧
    (∀ ceiling, (run ceiling).steps.length ≤ ceiling + 1) ∧
    (∀ ceiling, max ceiling 1 ≤ (Command.ofScript script).length →
      (run ceiling).fault = none) := by
  intro run obeyed
  have hk : run k = ofCommands color obeyed (run k).fault := by
    simp only [run, obeyed, ofScript_eq_ofStream]
    rfl
  have hlength (ceiling : Nat) :
      (run ceiling).steps.length = min ceiling (Command.ofScript script).length + 1 :=
    length_steps_ofScript script color ceiling
  refine ⟨hk, fun hj hlt ↦ ?_, fun hj hle ↦ ?_, ?_, ?_, fun ceiling ↦ ?_, fun ceiling hc ↦ ?_⟩
  · have hcut : run j = ofCommands color (obeyed.take j) none := by
      rw [List.take_take, Nat.min_eq_left (Nat.le_of_lt hjk)]
      exact ofScript_of_ceiling (by rw [hlength] at hlt; omega)
    rw [hk, hcut]
    exact ⟨steps_ofCommands_take color obeyed j none (run k).fault, rfl, rfl, rfl⟩
  · rw [hlength] at hle
    exact (ofScript_of_room (by omega)).trans (ofScript_of_room (by omega)).symm
  · rintro rfl hone
    rw [hlength] at hone
    exact (ofScript_of_room (by omega)).trans (ofScript_of_room (by omega)).symm
  · rintro rfl hone
    rw [hlength] at hone
    exact ofScript_of_ceiling (by omega)
  · rw [hlength]
    omega
  · simp only [run, ofScript_of_ceiling hc]
    rfl

/-- A fault that the higher ceiling reaches and the lower one does not. -/
theorem ofScript_of_one_lt_three :
    let run : Nat → Run := fun ceiling ↦
      ofScript "fd(10)\nfd(20)\nlt(x)" { maxSteps := ceiling, color := "red" }
    (run 3).fault.isSome ∧ 1 < (run 3).steps.length ∧
      (run 1).steps = (run 3).steps.take 2 ∧ (run 1).fault = none := by
  intro run
  have hlt : 1 < (run 3).steps.length := by decide +kernel
  have h := ofScript_of_ceiling_lt "fd(10)\nfd(20)\nlt(x)" "red" (j := 1) (k := 3) (by decide)
  obtain ⟨hsteps, hfault, -⟩ := h.2.1 (Nat.le_refl 1) hlt
  exact ⟨by decide +kernel, hlt, hsteps, hfault⟩

end TurtleGraphics.Run
