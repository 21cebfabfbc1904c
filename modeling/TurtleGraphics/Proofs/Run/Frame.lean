import TurtleGraphics.Proofs.Run.Pen

/-!
# What a command leaves alone

Every command adds something to both coordinates and to the heading, if only zero, and yet it
changes what it is about and nothing else. This is no fact about one command: to add zero makes a
negative zero positive. It holds along a run, since there is no negative zero at the start and a sum
is one only if both its terms are, whatever the angles are and however they cancel out.
Main statements:

* `Cursor.IsPlain.changesOnly`: what one command changes about a cursor without a negative zero;
* `Cursor.isPlain_foldl_after`: no cursor that a run can get to has a negative zero;
* `Run.ofScript_changesOnly`: what each step of a run changes.
-/

namespace TurtleGraphics

/-- Whether the second cursor is the first but for what the command is about: the place for a move,
the heading for a turn, and the pen or its colour, which become what the command says. The cursors
are compared bit by bit: an equality of floats tells the two zeros apart, and there is only one
float that is no number. -/
def Command.ChangesOnly (c : Command) (s s' : Cursor) : Prop :=
  match c with
  | forward _ | backward _ => s' = { s with x := s'.x, y := s'.y }
  | left _ | right _ => s' = { s with heading := s'.heading }
  | penColor color => s' = { s with color }
  | penUp => s' = { s with penDown := false }
  | penDown => s' = { s with penDown := true }

namespace Cursor

variable {s : Cursor}

/-- What one command changes. -/
theorem IsPlain.changesOnly (h : s.IsPlain) (c : Command) : c.ChangesOnly s (s.after c) := by
  have hx := Binary64.add_zero_of_ne h.x
  have hy := Binary64.add_zero_of_ne h.y
  have hheading := Binary64.add_zero_of_ne h.heading
  cases c with
  | forward d | backward d =>
    show Cursor.mk _ _ (s.heading + 0) s.penDown s.color = _
    rw [hheading]
    rfl
  | left a | right a =>
    show Cursor.mk (s.x + 0) (s.y + 0) _ s.penDown s.color = _
    rw [hx, hy]
    rfl
  | penColor color =>
    show Cursor.mk (s.x + 0) (s.y + 0) (s.heading + 0) s.penDown color = _
    rw [hx, hy, hheading]
  | penUp | penDown =>
    show Cursor.mk (s.x + 0) (s.y + 0) (s.heading + 0) _ s.color = _
    rw [hx, hy, hheading]
    rfl

/-- No list of commands makes a negative zero. -/
theorem IsPlain.foldl_after (h : s.IsPlain) (cs : List Command) :
    (cs.foldl Cursor.after s).IsPlain := by
  induction cs generalizing s with
  | nil => exact h
  | cons c cs ih => exact ih (h.after c)

theorem isPlain_foldl_after (color : String) (cs : List Command) :
    (cs.foldl after (fresh color)).IsPlain :=
  (isPlain_fresh color).foldl_after cs

/-- With a negative zero, a command to the pen does change where the turtle is. -/
theorem exists_not_changesOnly : ∃ s : Cursor, ¬ Command.penUp.ChangesOnly s (s.after .penUp) := by
  refine ⟨{ fresh defaultColor with x := -0 }, fun h ↦ ?_⟩
  have hx : (-0 + 0 : Float) = -0 := congrArg Cursor.x h
  rw [Binary64.neg_zero_add_zero] at hx
  exact absurd hx (by decide)

end Cursor

namespace Run

/-- Between two steps of a run nothing changes but what the command between them is about, down to
the signs of zeros. No step has a negative zero, nor does anything that commands can lead to from a
fresh cursor, whatever numbers they carry. At a cursor that has one the first would not hold. -/
theorem ofScript_changesOnly (script : String) (options : Options) :
    let r := ofScript script options
    let obeyed := (Command.ofScript script).take options.maxSteps
    (r.steps.length = obeyed.length + 1 ∧
      ∀ i c, obeyed[i]? = some c → ∃ s s', r.steps[i]? = some ⟨i, s⟩ ∧
        r.steps[i + 1]? = some ⟨i + 1, s'⟩ ∧ s' = s.after c ∧ c.ChangesOnly s s') ∧
    (∀ step ∈ r.steps,
      step.cursor.x ≠ -0 ∧ step.cursor.y ≠ -0 ∧ step.cursor.heading ≠ -0) ∧
    (∀ (color : String) (cs : List Command), let s := cs.foldl Cursor.after (.fresh color)
      (s.x ≠ -0 ∧ s.y ≠ -0 ∧ s.heading ≠ -0) ∧ ∀ c : Command, c.ChangesOnly s (s.after c)) ∧
    ∃ s : Cursor, ¬ Command.penUp.ChangesOnly s (s.after .penUp) := by
  intro r obeyed
  have hr : r = ofCommands options.color obeyed _ := ofScript_eq_ofStream script options
  refine ⟨⟨?_, fun i c hc ↦ ?_⟩, fun step hstep ↦ ?_, fun color cs ↦ ?_,
    Cursor.exists_not_changesOnly⟩
  · rw [hr, length_steps_ofCommands]
  · obtain ⟨hi, -⟩ := List.getElem?_eq_some_iff.1 hc
    have hplain := Cursor.isPlain_foldl_after options.color (obeyed.take i)
    refine ⟨_, _, ?_, ?_, rfl, hplain.changesOnly c⟩
    · rw [hr]
      exact getElem?_steps_ofCommands options.color _ (Nat.le_of_lt hi)
    · rw [hr, getElem?_steps_ofCommands options.color _ hi, List.take_add_one, hc,
        Option.toList_some, List.foldl_concat]
  · obtain ⟨i, hi⟩ := exists_of_mem_steps_ofScript hstep
    obtain ⟨hx, hy, hheading⟩ := Cursor.isPlain_foldl_after options.color (obeyed.take i)
    rw [hi]
    exact ⟨hx, hy, hheading⟩
  · have hplain := Cursor.isPlain_foldl_after color cs
    exact ⟨⟨hplain.x, hplain.y, hplain.heading⟩, hplain.changesOnly⟩

/-- After a turn to the right by ninety degrees the heading is zero, and a colour that is given
there changes nothing but the colour. -/
theorem ofScript_changesOnly_color :
    let r := ofScript "rt(90)\ncolor('red')"
    ((Command.ofScript "rt(90)\ncolor('red')").take 1000)[1]?.bind Command.color? = some "red" ∧
      ∃ s s' : Cursor, r.steps[1]? = some ⟨1, s⟩ ∧ r.steps[2]? = some ⟨2, s'⟩ ∧
        s' = { s with color := "red" } ∧ s'.heading ≠ -0 := by
  intro r
  have hred : ((Command.ofScript "rt(90)\ncolor('red')").take 1000)[1]?.bind Command.color? =
      some "red" := by decide +kernel
  obtain ⟨c, hc, hcolor⟩ := Option.bind_eq_some_iff.1 hred
  obtain ⟨⟨-, hsteps⟩, hplain, -⟩ := ofScript_changesOnly "rt(90)\ncolor('red')" {}
  obtain ⟨s, s', hs, hs', -, hchanges⟩ := hsteps 1 c hc
  refine ⟨hred, s, s', hs, hs', ?_, (hplain _ (List.mem_of_getElem? hs')).2.2⟩
  cases c with
  | penColor color =>
    obtain rfl : color = "red" := Option.some.inj hcolor
    exact hchanges
  | forward _ | backward _ | left _ | right _ | penUp | penDown => cases hcolor

end Run

end TurtleGraphics
