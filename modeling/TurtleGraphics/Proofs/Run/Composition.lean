import TurtleGraphics.Proofs.Run.Replay
import TurtleGraphics.Proofs.Script.Numbering

/-!
# Scripts one after the other

A script that is put behind another one goes on where that one ended: with its cursor, its steps and
its sums, under the same ceiling. The only way in which the second script could reach back is to go
on the last loop of the first, so its first line with text must not be indented. Main statement:
`Run.ofScript_followed_by`.
-/

namespace TurtleGraphics

/-- Lines end a loop before them if the first of them that has text is in column 0. -/
theorem Line.detached_of_find? {lines : List Line}
    (h : ∀ l ∈ lines.find? (·.text ≠ ""), l.indent = 0) : Detached lines := by
  induction lines with
  | nil => simp [Detached, body]
  | cons l rest ih =>
    intro x hx
    rw [body, List.takeWhile_cons] at hx
    by_cases htext : l.text = ""
    · rw [List.find?_cons_of_neg (by simp [htext])] at h
      rw [if_pos (by simp [inBody, htext])] at hx
      rcases List.mem_cons.1 hx with rfl | hx
      · exact htext
      · exact ih h x hx
    · rw [List.find?_cons_of_pos (by simp [htext])] at h
      rw [if_neg (by simp [inBody, htext, h l rfl])] at hx
      exact absurd hx List.not_mem_nil

/-- The same reason, the line of its fault counted in another way. -/
def Halt.mapLine (g : Nat → Nat) : Halt → Halt
  | ceiling => ceiling
  | fault f => fault (f.mapLine g)

namespace Trail

/-! ## One list of lines after another -/

/-- Walking two lists of lines is walking one after the other, if the second does not go on a loop
of the first. -/
theorem performAll_sections_append (maxSteps : Nat) (script : List Line) {rest : List Line}
    (h : Line.Detached rest) (t : Trail) :
    t.performAll maxSteps (sections (script ++ rest)) =
      t.performAll maxSteps (sections script) >>= performAll maxSteps (sections rest) := by
  have hrest : performAll maxSteps (sections rest) = followAll maxSteps (Line.stream rest) :=
    funext (performAll_sections maxSteps rest)
  rw [performAll_sections, performAll_sections, hrest, Line.stream_append script h,
    followAll_upToFault, followAll_append]

/-- Counting the lines in another way changes where a fault is said to be, and nothing else. -/
theorem followAll_map_mapLine (maxSteps : Nat) (g : Nat → Nat) (es : List Event) (t : Trail) :
    t.followAll maxSteps (es.map (Event.mapLine g)) =
      (t.followAll maxSteps es).mapError (Prod.map id (Halt.mapLine g)) := by
  induction es generalizing t with
  | nil => rfl
  | cons e es ih =>
    rw [List.map_cons, followAll_cons, followAll_cons]
    cases e with
    | fault f => rfl
    | command c =>
      rw [Event.mapLine_command]
      simp only [follow, obey]
      split
      · rfl
      · split
        · rfl
        · exact ih (t.record c)

theorem performAll_map_mapNumber (maxSteps : Nat) (g : Nat → Nat) (lines : List Line) (t : Trail) :
    t.performAll maxSteps (sections (lines.map (Line.mapNumber g))) =
      (t.performAll maxSteps (sections lines)).mapError (Prod.map id (Halt.mapLine g)) := by
  rw [performAll_sections, Line.stream_map_mapNumber, followAll_map_mapLine, performAll_sections]

/-! ## Steps are kept -/

theorem steps_prefix_record (t : Trail) (c : Command) :
    t.steps.toList <+: (t.record c).steps.toList := by
  rw [steps_record]
  exact List.prefix_append _ _

/-- Whatever happens next, the steps there are stay in front. -/
theorem steps_prefix_followAll (maxSteps : Nat) (es : List Event) (t : Trail) :
    t.steps.toList <+: (Run.ofProgress (t.followAll maxSteps es)).steps := by
  induction es generalizing t with
  | nil => exact List.prefix_refl _
  | cons e es ih =>
    rw [followAll_cons]
    cases e with
    | fault f => exact List.prefix_refl _
    | command c =>
      simp only [follow, obey]
      split
      · exact List.prefix_refl _
      · split
        · exact steps_prefix_record t c
        · exact (steps_prefix_record t c).trans (ih (t.record c))

end Trail

namespace Run

theorem fault_ofProgress_mapError (g : Nat → Nat) (p : Progress) :
    (ofProgress (p.mapError (Prod.map id (Halt.mapLine g)))).fault =
      (ofProgress p).fault.map (Fault.mapLine g) := by
  cases p with
  | ok t => rfl
  | error e =>
    obtain ⟨t, halt⟩ := e
    cases halt with
    | ceiling => rfl
    | fault f => rfl

/-- A script behind another one is not looked at if that one met a fault or the ceiling. Otherwise
it is walked from where that one ended, its lines counted on. So the steps of the first script stay
in front, and a fault of the second is where the second has it, that many lines further down. -/
theorem ofScript_followed_by (s t : String) (options : Options)
    (ht : ∀ l ∈ (Line.ofScript t).find? (·.text ≠ ""), l.indent = 0) :
    let walk (lines : List Line) (trail : Trail) : Progress :=
      trail.performAll options.maxSteps (sections lines)
    let first := walk (Line.ofScript s) (.start options.color)
    let further : Nat → Nat := (· + (Line.ofScript s).length)
    let run := ofScript (s ++ "\n" ++ t) options
    (∀ trail halt, first = .error (trail, halt) → run = ofScript s options) ∧
    (∀ trail, first = .ok trail →
      run = ofProgress (walk ((Line.ofScript t).map (Line.mapNumber further)) trail)) ∧
    (ofScript s options).steps <+: run.steps ∧
    (∀ trail, first = .ok trail → ∀ f, run.fault = some f →
      ∃ f', (ofProgress (walk (Line.ofScript t) trail)).fault = some f' ∧
        f = f'.mapLine further ∧ f.line = f'.line + (Line.ofScript s).length) := by
  intro walk first further run
  have hrun : run = ofProgress
      (first >>= walk ((Line.ofScript t).map (Line.mapNumber further))) := by
    have hdetached := Line.detached_map_mapNumber further (Line.detached_of_find? ht)
    simp only [run, ofScript, ofLines, Line.ofScript_append]
    exact congrArg ofProgress (Trail.performAll_sections_append _ _ hdetached _)
  have herror (trail : Trail) (halt : Halt) (h : first = .error (trail, halt)) :
      run = ofScript s options := by
    rw [hrun, h]
    exact congrArg ofProgress h.symm
  have hok (trail : Trail) (h : first = .ok trail) :
      run = ofProgress (walk ((Line.ofScript t).map (Line.mapNumber further)) trail) := by
    rw [hrun, h]
    rfl
  refine ⟨herror, hok, ?_, fun trail h f hf ↦ ?_⟩
  · have hs : ofScript s options = ofProgress first := rfl
    cases hfirst : first with
    | error e =>
      have hsteps := congrArg steps (herror e.1 e.2 hfirst)
      exact hsteps ▸ List.prefix_refl _
    | ok trail =>
      rw [hok trail hfirst, hs, hfirst]
      simp only [walk, Trail.performAll_sections]
      exact Trail.steps_prefix_followAll _ _ trail
  · rw [hok trail h] at hf
    simp only [walk, Trail.performAll_map_mapNumber, fault_ofProgress_mapError] at hf
    obtain ⟨f', hf', rfl⟩ := Option.map_eq_some_iff.1 hf
    exact ⟨f', hf', rfl, Fault.line_mapLine further f'⟩

/-- The loop at the end of the first script takes the blank line of the second, and the fault is on
the fourth line. -/
theorem ofScript_followed_by_fault :
    let run := ofScript ("for i in range(2):\n  fd(1)" ++ "\n" ++ "\nlt(x)") { color := "red" }
    (∀ l ∈ (Line.ofScript "\nlt(x)").find? (·.text ≠ ""), l.indent = 0) ∧
      (ofScript "for i in range(2):\n  fd(1)" { color := "red" }).steps <+: run.steps ∧
      run.fault.map Fault.line = some 4 := by
  have ht : ∀ l ∈ (Line.ofScript "\nlt(x)").find? (·.text ≠ ""), l.indent = 0 := by decide +kernel
  have h := ofScript_followed_by "for i in range(2):\n  fd(1)" "\nlt(x)" { color := "red" } ht
  exact ⟨ht, h.2.2.1, by decide +kernel⟩

end Run

end TurtleGraphics
