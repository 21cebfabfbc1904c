import TurtleGraphics.Proofs.Cursor.Zero
import TurtleGraphics.Proofs.Drawing.Document
import TurtleGraphics.Proofs.Run.Replay

/-!
# The lines of a drawing are the moves of the run

A drawing is made from the recorded cursors alone, and asks of two in a row whether the later has
its pen down and whether they are apart. A move changes neither the pen nor the colour, and every
other command leaves the turtle where it is, so what is drawn are the moves that were made with the
pen down, each in the colour that it was made in. Main statement: `Drawing.render_moves`.
-/

namespace TurtleGraphics

/-- Whether the command takes the turtle along its heading. -/
def Command.isMove : Command → Bool
  | forward _ | backward _ => true
  | left _ | right _ | penColor _ | penUp | penDown => false

/-- Whether the cursor is at a place: neither of its coordinates is no number. -/
def Cursor.IsPlaced (c : Cursor) : Prop := c.x.isNaN = false ∧ c.y.isNaN = false

/-! ## One command -/

/-- A move leaves the pen and its colour as they are. -/
theorem Cursor.pen_after {c : Command} (h : c.isMove) (s : Cursor) :
    (s.after c).penDown = s.penDown ∧ (s.after c).color = s.color := by
  cases c with
  | forward _ | backward _ => exact ⟨rfl, rfl⟩
  | left _ | right _ | penColor _ | penUp | penDown => cases h

/-- A command that is no move adds zero to both coordinates. -/
theorem Cursor.beq_after {c : Command} (h : c.isMove = false) {s : Cursor} (hs : s.IsPlaced) :
    (s.x == (s.after c).x && s.y == (s.after c).y) = true := by
  have hadd : (s.after c).x = s.x + 0 ∧ (s.after c).y = s.y + 0 := by
    cases c with
    | forward _ | backward _ => cases h
    | left _ | right _ | penColor _ | penUp | penDown => exact ⟨rfl, rfl⟩
  rw [hadd.1, hadd.2, Binary64.beq_add_zero hs.1, Binary64.beq_add_zero hs.2]
  rfl

namespace Drawing

/-- Whether the command, given at `start`, is a move to a cursor at another place with the pen
down. -/
def isStroke (m : Command × Cursor × Cursor) : Bool :=
  m.1.isMove && m.2.1.penDown && !(m.2.1.x == m.2.2.x && m.2.1.y == m.2.2.y)

/-- The way of a command is drawn if it is such a move. -/
theorem isDrawn_after (c : Command) {s : Cursor} (hs : s.IsPlaced) :
    isDrawn s (s.after c) = isStroke (c, s, s.after c) := by
  rw [isDrawn, isStroke]
  cases hc : c.isMove with
  | true => rw [(Cursor.pen_after hc s).1, Bool.true_and]
  | false => rw [Cursor.beq_after hc hs, Bool.not_true, Bool.and_false, Bool.and_false]

/-! ## A whole run -/

theorem length_pairs_trace (color : String) (cs : List Command) :
    (pairs (Command.trace color cs)).length = cs.length := by
  rw [pairs, List.length_zip, List.length_tail, Command.trace, List.length_scanl]
  omega

theorem pairs_scanl_cons (c : Command) (cs : List Command) (s : Cursor) :
    pairs ((c :: cs).scanl Cursor.after s) =
      (s, s.after c) :: pairs (cs.scanl Cursor.after (s.after c)) := by
  cases cs with
  | nil => rfl
  | cons d ds =>
    rw [pairs, pairs, List.scanl_cons, List.tail_cons, List.scanl_cons, List.zip_cons_cons,
      List.tail_cons]

/-- Each command leads from one cursor on its way to the next. -/
theorem eq_after_of_mem_zip {cs : List Command} {s : Cursor} {m : Command × Cursor × Cursor}
    (h : m ∈ cs.zip (pairs (cs.scanl Cursor.after s))) : m.2.2 = m.2.1.after m.1 := by
  induction cs generalizing s with
  | nil => cases h
  | cons c cs ih =>
    rw [pairs_scanl_cons, List.zip_cons_cons, List.mem_cons] at h
    rcases h with rfl | h
    · rfl
    · exact ih h

/-- What is drawn of the way that some commands lead are the moves among them. -/
theorem drawn_trace {color : String} {cs : List Command}
    (h : ∀ s ∈ Command.trace color cs, s.IsPlaced) :
    drawn (Command.trace color cs) =
      ((cs.zip (pairs (Command.trace color cs))).filter isStroke).map Prod.snd := by
  have hsnd : (cs.zip (pairs (Command.trace color cs))).map Prod.snd =
      pairs (Command.trace color cs) :=
    List.map_snd_zip (Nat.le_of_eq (length_pairs_trace color cs))
  rw [drawn, ← hsnd, List.filter_map, hsnd]
  refine congrArg (List.map Prod.snd) (List.filter_congr ?_)
  rintro ⟨c, start, stop⟩ hm
  obtain rfl : stop = start.after c := eq_after_of_mem_zip hm
  exact isDrawn_after c (h start (List.of_mem_zip (List.of_mem_zip hm).2).1)

theorem map_cursor_mapIdx (cursors : List Cursor) :
    (cursors.mapIdx Step.mk).map Step.cursor = cursors := by
  refine List.ext_getElem? fun i ↦ ?_
  rw [List.getElem?_map, List.getElem?_mapIdx, Option.map_map]
  exact Option.map_id'

/-- The recorded cursors are those that the commands of the run lead through. -/
theorem map_cursor_ofScript (script : String) (options : Options) :
    (Run.ofScript script options).steps.map Step.cursor =
      Command.trace options.color ((Command.ofScript script).take options.maxSteps) := by
  rw [Run.ofScript_eq_ofStream]
  exact map_cursor_mapIdx _

/-- The line of a move is in the colour that the move was made in. -/
theorem map_drawn {α : Type} (f : Cursor → Cursor → String → α) {color : String} {cs : List Command}
    (h : ∀ s ∈ Command.trace color cs, s.IsPlaced) :
    (drawn (Command.trace color cs)).map (fun p ↦ f p.1 p.2 p.2.color) =
      ((cs.zip (pairs (Command.trace color cs))).filter isStroke).map
        fun m ↦ f m.2.1 m.2.2 m.2.1.color := by
  rw [drawn_trace h, List.map_map]
  refine List.map_congr_left ?_
  rintro ⟨c, start, stop⟩ hm
  obtain ⟨hm, hstroke⟩ := List.mem_filter.1 hm
  have hstop : stop = start.after c := eq_after_of_mem_zip hm
  have hmove : c.isMove := by
    rw [isStroke, Bool.and_eq_true, Bool.and_eq_true] at hstroke
    exact hstroke.1.1
  have hcolor : stop.color = start.color := by
    rw [hstop, (Cursor.pen_after hmove start).2]
  show f start stop stop.color = f start stop start.color
  rw [hcolor]

theorem filter_isNamed_line (ps : List (Cursor × Cursor)) (dots : List Cursor) :
    (ps.map (fun p ↦ lineElement p.1 p.2) ++ dots.map dotElement).filter (Xml.isNamed "line") =
      ps.map fun p ↦ lineElement p.1 p.2 := by
  have hlines : ∀ node ∈ ps.map (fun p ↦ lineElement p.1 p.2), node.isNamed "line" = true := by
    intro node hnode
    obtain ⟨p, -, rfl⟩ := List.mem_map.1 hnode
    rfl
  have hdots : ∀ node ∈ dots.map dotElement, ¬ node.isNamed "line" = true := by
    intro node hnode
    obtain ⟨last, -, rfl⟩ := List.mem_map.1 hnode
    show ¬ decide ("circle" = "line") = true
    decide
  rw [List.filter_append, List.filter_eq_self.2 hlines, List.filter_eq_nil_iff.2 hdots,
    List.append_nil]

/-- The lines of the drawing of a run are the moves of the run that were made with the pen down and
led to another place, in order, each in the colour that the pen had before it. -/
theorem render_moves (script : String) (options : Options)
    (hplaced : ∀ step ∈ (Run.ofScript script options).steps,
      step.cursor.x.isNaN = false ∧ step.cursor.y.isNaN = false) :
    let steps := (Run.ofScript script options).steps
    let commands := (Command.ofScript script).take options.maxSteps
    let states := steps.map Step.cursor
    let moves := (commands.zip (states.zip states.tail)).filter fun m ↦
      m.1.isMove && m.2.1.penDown && !(m.2.1.x == m.2.2.x && m.2.1.y == m.2.2.y)
    states = Command.trace options.color commands ∧
    (∃ attributes children,
      Xml.ofString? (render steps) = some (.element "svg" attributes children) ∧
      children.filter (Xml.isNamed "line") = moves.map fun m ↦ .element "line"
        [("x1", coordinate m.2.1.x), ("y1", coordinate (-m.2.1.y)),
          ("x2", coordinate m.2.2.x), ("y2", coordinate (-m.2.2.y)),
          ("stroke", m.2.1.color), ("stroke-width", "2"), ("stroke-linecap", "round")] []) ∧
    render steps = header (.ofSteps steps) ++
      String.join (moves.map fun m ↦
        "  <line x1=\"" ++ coordinate m.2.1.x ++ "\" y1=\"" ++ coordinate (-m.2.1.y) ++
          "\" x2=\"" ++ coordinate m.2.2.x ++ "\" y2=\"" ++ coordinate (-m.2.2.y) ++
          "\" stroke=\"" ++ escape m.2.1.color ++
          "\" stroke-width=\"2\" stroke-linecap=\"round\"/>\n") ++
      (states.getLast?.map dot).getD "" ++ "</svg>\n" := by
  intro steps commands states moves
  have hstates : states = Command.trace options.color commands := map_cursor_ofScript script options
  have htrace : ∀ s ∈ Command.trace options.color commands, s.IsPlaced := by
    rw [← hstates]
    intro s hs
    obtain ⟨step, hstep, rfl⟩ := List.mem_map.1 hs
    exact hplaced step hstep
  have hmap {α : Type} (f : Cursor → Cursor → String → α) :
      (drawn states).map (fun p ↦ f p.1 p.2 p.2.color) =
        moves.map fun m ↦ f m.2.1 m.2.2 m.2.1.color := by
    have hdrawn := map_drawn f htrace
    rw [← hstates] at hdrawn
    exact hdrawn
  refine ⟨hstates, ⟨_, _, ofString?_render steps, ?_⟩, ?_⟩
  · rw [filter_isNamed_line]
    exact hmap fun start stop color ↦ Xml.element "line" [("x1", coordinate start.x),
      ("y1", coordinate (-start.y)), ("x2", coordinate stop.x), ("y2", coordinate (-stop.y)),
      ("stroke", color), ("stroke-width", "2"), ("stroke-linecap", "round")] []
  · rw [← hmap fun start stop color ↦
      "  <line x1=\"" ++ coordinate start.x ++ "\" y1=\"" ++ coordinate (-start.y) ++
        "\" x2=\"" ++ coordinate stop.x ++ "\" y2=\"" ++ coordinate (-stop.y) ++
        "\" stroke=\"" ++ escape color ++
        "\" stroke-width=\"2\" stroke-linecap=\"round\"/>\n"]
    rfl

/-! ## Two runs -/

section

variable (hcos : (90 * radiansPerDegree).cos = 6.123233995736766e-17)
  (hsin : (90 * radiansPerDegree).sin = 1)

include hcos hsin

/-- Where a move leads that is made with the turtle facing up. -/
theorem after_forward_of_upward {s : Cursor} (h : s.heading = 90) (distance : Float) :
    s.after (.forward distance) = { s with
      x := s.x + 6.123233995736766e-17 * distance
      y := s.y + 1 * distance
      heading := s.heading + 0 } := by
  rw [Cursor.after, Command.effect, h, Effect.travel, hcos, hsin, Cursor.apply, h]
  rfl

theorem map_cursor_of_upward :
    (Run.ofScript "fd(100)\npu()\nfd(50)").steps.map Step.cursor =
      [⟨0, 0, 90, true, defaultColor⟩, ⟨6.123233995736766e-15, 100, 90, true, defaultColor⟩,
        ⟨6.123233995736766e-15, 100, 90, false, defaultColor⟩,
        ⟨9.184850993605149e-15, 150, 90, false, defaultColor⟩] := by
  have hcommands : (Command.ofScript "fd(100)\npu()\nfd(50)").take 1000 =
      [.forward 100, .penUp, .forward 50] := by decide +kernel
  refine (map_cursor_ofScript "fd(100)\npu()\nfd(50)" {}).trans
    ((congrArg (Command.trace defaultColor) hcommands).trans ?_)
  simp only [Command.trace, List.scanl_cons, List.scanl_nil]
  rw [after_forward_of_upward hcos hsin rfl 100,
    after_forward_of_upward hcos hsin (by decide +kernel) 50]
  decide +kernel

end

/-- Turning and changing the pen draws nothing. With the values that cosine and sine have at ninety
degrees, a move up is drawn as a line, and the move after it, with the pen up, is not. -/
theorem render_moves_upward :
    ((∀ step ∈ (Run.ofScript "lt(90)\npencolor('red')\npu()\npd()").steps,
        step.cursor.x.isNaN = false ∧ step.cursor.y.isNaN = false) ∧
      ∃ attributes children,
        Xml.ofString? (render (Run.ofScript "lt(90)\npencolor('red')\npu()\npd()").steps) =
          some (.element "svg" attributes children) ∧
        children.filter (Xml.isNamed "line") = []) ∧
    ((90 * radiansPerDegree).cos = 6.123233995736766e-17 → (90 * radiansPerDegree).sin = 1 →
      (∀ step ∈ (Run.ofScript "fd(100)\npu()\nfd(50)").steps,
        step.cursor.x.isNaN = false ∧ step.cursor.y.isNaN = false) ∧
      ∃ attributes children,
        Xml.ofString? (render (Run.ofScript "fd(100)\npu()\nfd(50)").steps) =
          some (.element "svg" attributes children) ∧
        children.filter (Xml.isNamed "line") = [.element "line"
          [("x1", "0.000"), ("y1", "-0.000"), ("x2", "0.000"), ("y2", "-100.000"),
            ("stroke", "#34d399"), ("stroke-width", "2"), ("stroke-linecap", "round")] []]) := by
  refine ⟨?_, fun hcos hsin ↦ ?_⟩
  · have hplaced : ∀ step ∈ (Run.ofScript "lt(90)\npencolor('red')\npu()\npd()").steps,
        step.cursor.x.isNaN = false ∧ step.cursor.y.isNaN = false := by decide +kernel
    have hturns : ∀ c ∈ Command.ofScript "lt(90)\npencolor('red')\npu()\npd()",
        c.isMove = false := by decide +kernel
    obtain ⟨-, ⟨attributes, children, hread, hlines⟩, -⟩ := render_moves _ {} hplaced
    refine ⟨hplaced, attributes, children, hread, ?_⟩
    rw [hlines, List.map_eq_nil_iff, List.filter_eq_nil_iff]
    rintro ⟨c, start, stop⟩ hm
    have hc := hturns c (List.mem_of_mem_take (List.of_mem_zip hm).1)
    rw [hc]
    exact Bool.false_ne_true
  · have hstates := map_cursor_of_upward hcos hsin
    have hplaced : ∀ step ∈ (Run.ofScript "fd(100)\npu()\nfd(50)").steps,
        step.cursor.x.isNaN = false ∧ step.cursor.y.isNaN = false := by
      have hcursors : ∀ c ∈ (Run.ofScript "fd(100)\npu()\nfd(50)").steps.map Step.cursor,
          c.x.isNaN = false ∧ c.y.isNaN = false := by
        rw [hstates]
        decide +kernel
      exact List.forall_mem_map.1 hcursors
    have hmoves : (((Command.ofScript "fd(100)\npu()\nfd(50)").take 1000).zip
          (pairs ((Run.ofScript "fd(100)\npu()\nfd(50)").steps.map Step.cursor))).filter isStroke =
        [(.forward 100, ⟨0, 0, 90, true, defaultColor⟩,
          ⟨6.123233995736766e-15, 100, 90, true, defaultColor⟩)] := by
      rw [hstates]
      decide +kernel
    have hwritten : coordinate 0 = "0.000" ∧ coordinate (-0) = "-0.000" ∧
        coordinate 6.123233995736766e-15 = "0.000" ∧ coordinate (-100) = "-100.000" := by
      decide +kernel
    obtain ⟨-, ⟨attributes, children, hread, hlines⟩, -⟩ := render_moves _ {} hplaced
    refine ⟨hplaced, attributes, children, hread, ?_⟩
    refine hlines.trans ((congrArg (List.map _) hmoves).trans ?_)
    simp only [List.map_singleton, hwritten]
    rfl

end Drawing

end TurtleGraphics
