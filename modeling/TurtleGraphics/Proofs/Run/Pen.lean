import TurtleGraphics.Level
import TurtleGraphics.Proofs.Cursor.Zero
import TurtleGraphics.Proofs.Run.Ceiling
import TurtleGraphics.Proofs.Script.Variation

/-!
# The pen and where the turtle goes

Neither the colour of a run nor a command to the pen says where the turtle goes, what it has gone
and turned in all, or how the run ends. A command to the pen does add zero to the coordinates and
the heading, which would show on a negative zero; but no run has one, since none is there at the
start and no sum of other floats is one. Main statement: `Run.ofScript_pen`.
-/

namespace TurtleGraphics

namespace Command

/-- Whether the command is to the pen: what colour to have, and whether to be down. -/
def isPen : Command → Bool
  | penColor _ | penUp | penDown => true
  | forward _ | backward _ | left _ | right _ => false

/-- The colour that the command gives the pen. -/
def color? : Command → Option String
  | penColor color => some color
  | forward _ | backward _ | left _ | right _ | penUp | penDown => none

end Command

/-! ## Poses -/

namespace Cursor

variable {s s' : Cursor} {c : Command} {cs cs' : List Command}

/-- Whether the turtle is at the same place and faces the same way. -/
structure SamePose (s s' : Cursor) : Prop where
  x : s.x = s'.x
  y : s.y = s'.y
  heading : s.heading = s'.heading

theorem SamePose.trans {s'' : Cursor} (h : s.SamePose s') (h' : s'.SamePose s'') :
    s.SamePose s'' :=
  ⟨h.x.trans h'.x, h.y.trans h'.y, h.heading.trans h'.heading⟩

/-- What a command does depends on where the turtle faces only. -/
theorem SamePose.effect_eq (h : s.SamePose s') (c : Command) : c.effect s = c.effect s' := by
  cases c with
  | forward d | backward d => simp only [Command.effect, h.heading]
  | left a | right a | penColor color | penUp | penDown => rfl

theorem SamePose.after (h : s.SamePose s') (c : Command) : (s.after c).SamePose (s'.after c) := by
  have heffect := h.effect_eq c
  constructor
  · show s.x + _ = s'.x + _
    rw [h.x, heffect]
  · show s.y + _ = s'.y + _
    rw [h.y, heffect]
  · show s.heading + _ = s'.heading + _
    rw [h.heading, heffect]

/-- Whether neither a coordinate nor the heading is the negative zero. -/
structure IsPlain (s : Cursor) : Prop where
  x : s.x ≠ -0
  y : s.y ≠ -0
  heading : s.heading ≠ -0

theorem isPlain_fresh (color : String) : (fresh color).IsPlain := by
  have hzero : (0 : Float) ≠ -0 := by decide
  have hup : (90 : Float) ≠ -0 := by decide
  exact ⟨hzero, hzero, hup⟩

/-- No command makes a negative zero. -/
theorem IsPlain.after (h : s.IsPlain) (c : Command) : (s.after c).IsPlain :=
  ⟨fun hx ↦ h.x (Binary64.add_eq_neg_zero hx).1, fun hy ↦ h.y (Binary64.add_eq_neg_zero hy).1,
    fun hheading ↦ h.heading (Binary64.add_eq_neg_zero hheading).1⟩

/-- A command to the pen leaves the turtle as it is. -/
theorem IsPlain.samePose_after (h : s.IsPlain) (hc : c.isPen) : (s.after c).SamePose s := by
  have hadd : (s.after c).x = s.x + 0 ∧ (s.after c).y = s.y + 0 ∧
      (s.after c).heading = s.heading + 0 := by
    cases c with
    | penColor color | penUp | penDown => exact ⟨rfl, rfl, rfl⟩
    | forward d | backward d | left a | right a => cases hc
  obtain ⟨hx, hy, hheading⟩ := hadd
  refine ⟨hx.trans (Binary64.add_zero_of_ne h.x), hy.trans (Binary64.add_zero_of_ne h.y), ?_⟩
  exact hheading.trans (Binary64.add_zero_of_ne h.heading)

end Cursor

/-! ## Without some commands to the pen -/

/-- Whether the second list is the first without some members that satisfy `p`. -/
inductive Erased {α : Type} (p : α → Bool) : List α → List α → Prop
  | nil : Erased p [] []
  | keep (a : α) {as bs : List α} (h : Erased p as bs) : Erased p (a :: as) (a :: bs)
  | drop {a : α} (ha : p a) {as bs : List α} (h : Erased p as bs) : Erased p (a :: as) bs

namespace Erased

variable {α : Type} {p : α → Bool} {as bs cs ds : List α}

theorem refl (as : List α) : Erased p as as := by
  induction as with
  | nil => exact .nil
  | cons a as ih => exact .keep a ih

theorem append (h : Erased p as bs) (h' : Erased p cs ds) : Erased p (as ++ cs) (bs ++ ds) := by
  induction h with
  | nil => exact h'
  | keep a _ ih => exact .keep a ih
  | drop ha _ ih => exact .drop ha ih

theorem length_le (h : Erased p as bs) : bs.length ≤ as.length := by
  induction h with
  | nil => exact Nat.le_refl _
  | keep a _ ih => exact Nat.succ_le_succ ih
  | drop _ _ ih => exact Nat.le_succ_of_le ih

end Erased

namespace Event

/-- Whether the event is a command to the pen. -/
def isPen (e : Event) : Bool := e.command?.any Command.isPen

theorem isCongruence_erased : IsCongruence (Erased isPen) := ⟨.refl, .append⟩

variable {es es' : List Event}

theorem erased_commands (h : Erased isPen es es') :
    Erased Command.isPen (commands (upToFault es)) (commands (upToFault es')) := by
  induction h with
  | nil => exact .nil
  | keep e _ ih =>
    cases e with
    | command c => exact .keep c ih
    | fault fault => exact .nil
  | @drop e he _ _ _ ih =>
    cases e with
    | command c =>
      have hc : c.isPen := he
      exact .drop hc ih
    | fault fault => cases he

theorem firstFault?_erased (h : Erased isPen es es') : firstFault? es = firstFault? es' := by
  induction h with
  | nil => rfl
  | keep e _ ih =>
    cases e with
    | command c => exact ih
    | fault fault => rfl
  | @drop e he _ _ _ ih =>
    cases e with
    | command c => exact ih
    | fault fault => cases he

end Event

namespace Cursor

variable {s s' : Cursor} {cs cs' : List Command}

theorem samePose_foldl (h : Erased Command.isPen cs cs') (hs : s.IsPlain) (hpose : s.SamePose s') :
    (cs.foldl after s).SamePose (cs'.foldl after s') := by
  induction h generalizing s s' with
  | nil => exact hpose
  | keep c _ ih => exact ih (hs.after c) (hpose.after c)
  | @drop c hc _ _ _ ih => exact ih (hs.after c) ((hs.samePose_after hc).trans hpose)

end Cursor

namespace Effect

/-- A command to the pen counts for neither sum. -/
theorem metric_of_isPen {c : Command} (hc : c.isPen) (s : Cursor) : (c.effect s).metric = none := by
  cases c with
  | penColor color | penUp | penDown => rfl
  | forward d | backward d | left a | right a => cases hc

theorem total_erased {s s' : Cursor} {cs cs' : List Command} (metric : Metric)
    (h : Erased Command.isPen cs cs') (hs : s.IsPlain) (hpose : s.SamePose s') :
    total metric (Command.effects s cs) = total metric (Command.effects s' cs') := by
  have hfilter : (Command.effects s cs).filter (·.metric = some metric) =
      (Command.effects s' cs').filter (·.metric = some metric) := by
    induction h generalizing s s' with
    | nil => rfl
    | keep c _ ih =>
      rw [Command.effects, Command.effects, List.filter_cons, List.filter_cons, hpose.effect_eq c,
        ih (hs.after c) (hpose.after c)]
    | @drop c hc _ _ _ ih =>
      rw [Command.effects, List.filter_cons_of_neg (by simp [metric_of_isPen hc s]),
        ih (hs.after c) ((hs.samePose_after hc).trans hpose)]
  rw [total, total, hfilter]

end Effect

/-! ## Runs -/

namespace Run

/-- Whether the runs are the same to a level: they have the same sums and the same fault, and end
at the same place with the same heading. -/
structure SameOutcome (r r' : Run) : Prop where
  fault : r.fault = r'.fault
  pathLength : r.pathLength = r'.pathLength
  totalTurns : r.totalTurns = r'.totalTurns
  final : ∃ last last', r.final? = some last ∧ r'.final? = some last' ∧ last.SamePose last'

theorem evaluate_congr {r r' : Run} (h : r.SameOutcome r') (level : Level) :
    level.evaluate r = level.evaluate r' := by
  obtain ⟨last, last', hlast, hlast', hpose⟩ := h.final
  have hmet : level.goal.isMet last r.pathLength r.totalTurns =
      level.goal.isMet last' r'.pathLength r'.totalTurns := by
    rw [Goal.isMet, Goal.isMet, hpose.x, hpose.y, h.pathLength, h.totalTurns]
  rw [Level.evaluate, Level.evaluate, h.fault, hlast, hlast']
  simp only [hmet]

theorem final?_ofCommands (color : String) (cs : List Command) (fault : Option Fault) :
    (ofCommands color cs fault).final? = some (cs.foldl Cursor.after (.fresh color)) := by
  rw [final?, ofCommands, List.getLast?_mapIdx, Command.trace, List.getLast?_scanl]
  rfl

theorem sameOutcome_ofCommands {cs cs' : List Command} (h : Erased Command.isPen cs cs')
    (color color' : String) (fault : Option Fault) :
    (ofCommands color cs fault).SameOutcome (ofCommands color' cs' fault) where
  fault := rfl
  pathLength := Effect.total_erased .pathLength h (Cursor.isPlain_fresh color) ⟨rfl, rfl, rfl⟩
  totalTurns := Effect.total_erased .totalTurns h (Cursor.isPlain_fresh color) ⟨rfl, rfl, rfl⟩
  final := ⟨_, _, final?_ofCommands color cs fault, final?_ofCommands color' cs' fault,
    Cursor.samePose_foldl h (Cursor.isPlain_fresh color) ⟨rfl, rfl, rfl⟩⟩

/-- Events without some commands to the pen, if they all find room under the ceiling. -/
theorem sameOutcome_ofEvents {options : Options} {es es' : List Event}
    (h : Erased Event.isPen es es')
    (hroom : (ofEvents options es).steps.length ≤ options.maxSteps) :
    (ofEvents options es).SameOutcome (ofEvents options es') := by
  have hcommands := Event.erased_commands h
  have hlength := hcommands.length_le
  rw [ofEvents_eq_ofCommands] at hroom ⊢
  rw [ofEvents_eq_ofCommands, ← Event.firstFault?_erased h]
  rw [length_steps_ofCommands, List.length_take] at hroom
  rw [List.take_of_length_le (by omega), List.take_of_length_le (by omega), if_pos (by omega),
    if_pos (by omega)]
  exact sameOutcome_ofCommands hcommands _ _ _

/-! ### Runs that start with another colour -/

/-- The step with the id `i` is where the first `i` commands lead. -/
theorem getElem?_steps_ofCommands (color : String) {cs : List Command} (fault : Option Fault)
    {i : Nat} (h : i ≤ cs.length) : (ofCommands color cs fault).steps[i]? =
      some ⟨i, (cs.take i).foldl Cursor.after (.fresh color)⟩ := by
  rw [ofCommands, List.getElem?_mapIdx, Command.trace, List.getElem?_scanl, if_pos h]
  rfl

/-- A recorded cursor is where some of the first commands lead. -/
theorem exists_of_mem_steps_ofCommands {color : String} {cs : List Command} {fault : Option Fault}
    {step : Step} (h : step ∈ (ofCommands color cs fault).steps) :
    ∃ i, step.cursor = (cs.take i).foldl Cursor.after (.fresh color) := by
  obtain ⟨i, hi, hstep⟩ := List.getElem_of_mem h
  rw [length_steps_ofCommands] at hi
  have hget := getElem?_steps_ofCommands color fault (Nat.le_of_lt_succ hi)
  rw [List.getElem?_eq_getElem (by rwa [length_steps_ofCommands]), hstep] at hget
  exact ⟨i, congrArg Step.cursor (Option.some.inj hget)⟩

theorem exists_of_mem_steps_ofScript {script : String} {options : Options} {step : Step}
    (h : step ∈ (ofScript script options).steps) :
    ∃ i, step.cursor = (((Command.ofScript script).take options.maxSteps).take i).foldl
      Cursor.after (.fresh options.color) := by
  rw [ofScript_eq_ofStream] at h
  exact exists_of_mem_steps_ofCommands h

end Run

namespace Cursor

variable {s s' : Cursor}

theorem color_after (s : Cursor) (c : Command) :
    (s.after c).color = c.color?.getD s.color := by
  cases c with
  | forward d | backward d | left a | right a | penColor color | penUp | penDown => rfl

/-- The colour is the one that was given last. -/
theorem color_foldl (s : Cursor) (cs : List Command) :
    (cs.foldl after s).color = (cs.filterMap Command.color?).getLast?.getD s.color := by
  induction cs generalizing s with
  | nil => rfl
  | cons c cs ih =>
    rw [List.foldl_cons, ih, color_after, List.filterMap_cons]
    cases c.color? with
    | none => rfl
    | some color =>
      rw [List.getLast?_cons]
      rfl

/-- The colour at the start does not show any more if another one was given. -/
theorem color_foldl_cases (s s' : Cursor) (cs : List Command) :
    if cs.any (·.color?.isSome) then (cs.foldl after s).color = (cs.foldl after s').color
    else (cs.foldl after s).color = s.color ∧ (cs.foldl after s').color = s'.color := by
  rw [color_foldl, color_foldl]
  cases hlast : (cs.filterMap Command.color?).getLast? with
  | none =>
    have hnone : ∀ c ∈ cs, c.color? = none :=
      List.filterMap_eq_nil_iff.1 (List.getLast?_eq_none_iff.1 hlast)
    rw [if_neg (by simpa using hnone)]
    exact ⟨rfl, rfl⟩
  | some color =>
    obtain ⟨c, hc, hcolor⟩ := List.mem_filterMap.1 (List.mem_of_getLast? hlast)
    rw [if_pos (List.any_eq_true.2 ⟨c, hc, by rw [hcolor]; rfl⟩)]
    rfl

/-- Whether the pen is down depends on the commands only. -/
theorem penDown_foldl (h : s.penDown = s'.penDown) (cs : List Command) :
    (cs.foldl after s).penDown = (cs.foldl after s').penDown := by
  induction cs generalizing s s' with
  | nil => exact h
  | cons c cs ih =>
    refine ih ?_
    cases c with
    | forward d | backward d | left a | right a | penColor color => exact h
    | penUp | penDown => rfl

end Cursor

namespace Line

/-- Whether `t` is a comment with the indentation of `s`, and `s` a command to the pen. -/
structure CommentsOut (s t : String) : Prop where
  command : ∃ c : Command, c.isPen ∧ (ofText s).statement = .ok (.command c)
  comment : (ofText t).text.toList.head? = some '#'
  indent : (ofText t).indent = (ofText s).indent
  newline : '\n' ∉ t.toList

/-- A comment holds no token. -/
theorem ofChars_of_comment {n : Nat} {cs : List Char}
    (h : (ofChars n cs).text.toList.head? = some '#') : Tokens.ofChars cs = .finished := by
  rw [← ofString_text_ofChars n cs, Tokens.ofString]
  refine Tokens.ofChars_eq_finished_iff.2 ⟨[], _, (List.nil_append _).symm, by simp, ?_⟩
  intro c hc
  exact Option.some.inj (hc.symm.trans h)

theorem CommentsOut.varies {s t : String} (h : CommentsOut s t) (n : Nat) :
    (ofChars n s.toList).Varies (Erased Event.isPen) (ofChars n t.toList) := by
  obtain ⟨c, hpen, hc⟩ := h.command
  have hs : (ofChars n s.toList).statement = .ok (.command c) := statement_ofChars_of_ok hc n
  have ht : (ofChars n t.toList).statement = .ok .blank := by
    rw [statement_ofChars, ofChars_of_comment h.comment]
    rfl
  have htext : (ofChars n t.toList).text ≠ "" := by
    intro htext
    have hcomment : (ofChars n t.toList).text.toList.head? = some '#' := h.comment
    rw [htext] at hcomment
    cases hcomment
  constructor
  · rfl
  · rw [inBody_eq (text_ne_of_command hs), inBody_eq htext]
    exact congrArg (fun i ↦ decide (0 < i)) h.indent.symm
  · rw [opensLoop_ofChars, opensLoop_ofChars, ofChars_of_comment h.comment]
    rw [statement_ofChars] at hs
    exact Statement.opensLoop_of_command hs
  · rw [header?_of_command hs, Section.header?, ht]
  · rw [event?_of_command hs, event?, ht]
    have hpen : Event.isPen (.command c) := hpen
    exact .drop hpen .nil

end Line

namespace Run

theorem ofScript_eq_ofEvents (script : String) (options : Options) :
    ofScript script options =
      ofEvents options ((sections (Line.ofScript script)).flatMap Section.events) := by
  rw [ofScript, ofLines, Trail.performAll_eq, ofEvents]

/-- The same script run with another colour at the start. -/
theorem sameOutcome_ofScript_color (script : String) (maxSteps : Nat) (color color' : String) :
    (ofScript script { maxSteps, color }).SameOutcome
      (ofScript script { maxSteps, color := color' }) := by
  rw [ofScript_eq_ofStream, ofScript_eq_ofStream]
  exact sameOutcome_ofCommands (.refl _) color color' _

/-- A script with some of its commands to the pen made comments, if there was room for all. -/
theorem sameOutcome_ofScript_commentsOut {script : String} {options : Options} {texts : List String}
    (h : List.Forall₂ (fun s t ↦ t = s ∨ Line.CommentsOut s t) (Line.texts script) texts)
    (hroom : (ofScript script options).steps.length ≤ options.maxSteps) :
    (ofScript script options).SameOutcome (ofScript ("\n".intercalate texts) options) := by
  have hevents := Line.events_intercalate_varied Event.isCongruence_erased
    (fun s t hline n ↦ hline.elim (fun h ↦ h ▸ .refl Event.isCongruence_erased _) (·.varies n))
    (fun s t hline hs ↦ hline.elim (fun h ↦ h ▸ hs) (·.newline)) h
  rw [ofScript_eq_ofEvents] at hroom
  rw [ofScript_eq_ofEvents, ofScript_eq_ofEvents]
  exact sameOutcome_ofEvents hevents hroom

/-- Neither the colour that a run starts with nor the commands to the pen say where the turtle goes.

Runs that start with two colours have the same fault, the same sums and as many steps, and differ in
the colour of a step only if no command before it gave one. If there was room for another command,
lines that are commands to the pen can be made comments without a change to where the turtle ends,
to the sums or to the fault. So the verdict of a level stays the same. -/
theorem ofScript_pen (script : String) :
    (∀ maxSteps color color',
      let r := ofScript script { maxSteps, color }
      let r' := ofScript script { maxSteps, color := color' }
      let obeyed := (Command.ofScript script).take maxSteps
      r.fault = r'.fault ∧ r.pathLength = r'.pathLength ∧ r.totalTurns = r'.totalTurns ∧
      r.steps.length = obeyed.length + 1 ∧ r'.steps.length = obeyed.length + 1 ∧
      (∀ i ≤ obeyed.length, ∃ step step', r.steps[i]? = some step ∧ r'.steps[i]? = some step' ∧
        step.id = step'.id ∧ step.cursor.x = step'.cursor.x ∧ step.cursor.y = step'.cursor.y ∧
        step.cursor.heading = step'.cursor.heading ∧
        step.cursor.penDown = step'.cursor.penDown ∧
        if (obeyed.take i).any (·.color?.isSome) then step.cursor.color = step'.cursor.color
        else step.cursor.color = color ∧ step'.cursor.color = color') ∧
      ∀ level : Level, level.evaluate r = level.evaluate r') ∧
    ∀ options texts,
      List.Forall₂ (fun s t ↦ t = s ∨ Line.CommentsOut s t) (Line.texts script) texts →
      (ofScript script options).steps.length ≤ options.maxSteps →
      let r := ofScript script options
      let r' := ofScript ("\n".intercalate texts) options
      (∃ last last', r.final? = some last ∧ r'.final? = some last' ∧
        last.x = last'.x ∧ last.y = last'.y ∧ last.heading = last'.heading) ∧
      r.pathLength = r'.pathLength ∧ r.totalTurns = r'.totalTurns ∧ r.fault = r'.fault ∧
      ∀ level : Level, level.evaluate r = level.evaluate r' := by
  constructor
  · intro maxSteps color color' r r' obeyed
    have hr : r = ofCommands color obeyed _ := ofScript_eq_ofStream script _
    have hr' : r' = ofCommands color' obeyed _ := ofScript_eq_ofStream script _
    have hsame : r.SameOutcome r' := sameOutcome_ofScript_color script maxSteps color color'
    refine ⟨hsame.fault, hsame.pathLength, hsame.totalTurns, ?_, ?_, ?_, evaluate_congr hsame⟩
    · rw [hr, length_steps_ofCommands]
    · rw [hr', length_steps_ofCommands]
    · intro i hi
      have hfresh : (Cursor.fresh color).SamePose (.fresh color') := ⟨rfl, rfl, rfl⟩
      have hpen : (Cursor.fresh color).penDown = (Cursor.fresh color').penDown := rfl
      have hpose := Cursor.samePose_foldl (.refl (obeyed.take i)) (Cursor.isPlain_fresh color)
        hfresh
      rw [hr, hr']
      exact ⟨_, _, getElem?_steps_ofCommands color _ hi, getElem?_steps_ofCommands color' _ hi,
        rfl, hpose.x, hpose.y, hpose.heading, Cursor.penDown_foldl hpen _,
        Cursor.color_foldl_cases _ _ _⟩
  · intro options texts htexts hroom r r'
    have hsame : r.SameOutcome r' := sameOutcome_ofScript_commentsOut htexts hroom
    obtain ⟨last, last', hlast, hlast', hpose⟩ := hsame.final
    exact ⟨⟨last, last', hlast, hlast', hpose.x, hpose.y, hpose.heading⟩, hsame.pathLength,
      hsame.totalTurns, hsame.fault, evaluate_congr hsame⟩

/-- A colour that is given in a loop, under a ceiling that just leaves room: after it the turtle has
it whatever the run started with, and with a comment in its place the turtle turns as much. -/
theorem ofScript_pen_in_loop :
    let script := "fd(5)\nfor i in range(2):\n  color('red') # on\n  lt(5)\npu()"
    let copy := ["fd(5)", "for i in range(2):", "  # color('red')", "  lt(5)", "pu()"]
    let run (color : String) : Run := ofScript script { maxSteps := 7, color }
    3 ≤ ((Command.ofScript script).take 7).length ∧
      List.Forall₂ (fun s t ↦ t = s ∨ Line.CommentsOut s t) (Line.texts script) copy ∧
      (run "black").steps.length ≤ 7 ∧
      (∃ step step', (run "black").steps[3]? = some step ∧ (run "white").steps[3]? = some step' ∧
        step.cursor.color = step'.cursor.color) ∧
      (run "black").totalTurns =
        (ofScript ("\n".intercalate copy) { maxSteps := 7, color := "black" }).totalTurns := by
  intro script copy run
  have htexts : Line.texts script =
      ["fd(5)", "for i in range(2):", "  color('red') # on", "  lt(5)", "pu()"] := by decide +kernel
  have hargument : Grammar.Argument .penColor [.text "red"] (.penColor "red") :=
    ⟨"red", .text "red", rfl⟩
  have horder : Grammar.Order [.word "color", .leftParen, .text "red", .rightParen]
      (.penColor "red") := .call .absent (by decide) (.parens hargument)
  have hstatement :
      (Line.ofText "  color('red') # on").statement = .ok (.command (.penColor "red")) :=
    Statement.ofTokens_eq_command_iff.2 ⟨_, horder, by decide +kernel⟩
  have hcomment : Line.CommentsOut "  color('red') # on" "  # color('red')" :=
    ⟨⟨.penColor "red", rfl, hstatement⟩, by decide +kernel, by decide +kernel, by decide⟩
  have hcopy : List.Forall₂ (fun s t ↦ t = s ∨ Line.CommentsOut s t) (Line.texts script) copy := by
    rw [htexts]
    refine .cons (.inl rfl) (.cons (.inl rfl) (.cons (.inr hcomment) ?_))
    exact .cons (.inl rfl) (.cons (.inl rfl) .nil)
  have hthree : 3 ≤ ((Command.ofScript script).take 7).length := by decide +kernel
  have hroom : (run "black").steps.length ≤ 7 := by decide +kernel
  obtain ⟨hcolor, hcomments⟩ := ofScript_pen script
  obtain ⟨-, -, -, -, -, hsteps, -⟩ := hcolor 7 "black" "white"
  obtain ⟨step, step', hstep, hstep', -, -, -, -, -, hred⟩ := hsteps 3 hthree
  rw [if_pos (by decide +kernel)] at hred
  obtain ⟨-, -, hturns, -⟩ := hcomments { maxSteps := 7, color := "black" } copy hcopy hroom
  exact ⟨hthree, hcopy, hroom, ⟨step, step', hstep, hstep', hred⟩, hturns⟩

end Run

end TurtleGraphics
