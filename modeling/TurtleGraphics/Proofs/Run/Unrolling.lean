import Mathlib.Data.List.Forall2
import TurtleGraphics.Proofs.Run.Replay
import TurtleGraphics.Proofs.Script.Margin

/-!
# Loops written out

A loop means its body as often as the header says: a script with the loop and the script with the
copies of the body in its place, moved to column 0, leave the same run behind, up to the line that
the fault names. Main statement: `Run.ofScript_unroll`.

Both streams are computed from the streams of the parts. The loop ends before the rest of the
script, and so does whatever loop stands before it; the copies may begin with lines without text
that such a loop takes, which is no loss.
-/

namespace TurtleGraphics

namespace Line

/-- The stream of copies of lines that are no headers, and of what comes after them. -/
theorem stream_copies {block rest : List Line} (n : Nat)
    (hblock : ∀ l ∈ block, Section.header? l = none) (hrest : Detached rest) :
    stream ((List.replicate n block).flatten ++ rest) =
      Event.upToFault ((List.replicate n (block.filterMap event?)).flatten ++ stream rest) := by
  have hlines : ∀ l ∈ (List.replicate n block).flatten, Section.header? l = none := by
    intro l hl
    obtain ⟨block', hb, hl⟩ := List.mem_flatten.1 hl
    rw [List.eq_of_mem_replicate hb] at hl
    exact hblock l hl
  rw [stream_append _ hrest, stream_eq_filterMap hlines, Event.upToFault_upToFault_append,
    List.filterMap_flatten, List.map_replicate]

/-- A loop and the copies of its body in its place have the same stream. -/
theorem stream_unroll (before : List Line) {head : Line} {header : LoopHeader}
    {block rest : List Line} (hhead : Section.header? head = some header)
    (hindent : head.indent = 0) (hblock : ∀ l ∈ block, l.inBody)
    (hloops : ∀ l ∈ block, l.opensLoop = false) (hrest : body rest = []) :
    stream (before ++ (head :: block ++ rest)) =
      stream (before ++ ((List.replicate header.count (block.map outdent)).flatten ++ rest)) := by
  have hrest' : Detached rest := by
    intro l hl
    rw [hrest] at hl
    exact absurd hl List.not_mem_nil
  have hloop : Detached (head :: block ++ rest) := detached_cons_of_header? hhead hindent _
  have hcopies : Detached ((List.replicate header.count (block.map outdent)).flatten ++ rest) := by
    refine detached_append (fun l hl ↦ ?_) hrest'
    obtain ⟨copy, hcopy, hl⟩ := List.mem_flatten.1 hl
    rw [List.eq_of_mem_replicate hcopy] at hl
    exact indent_of_mem_map_outdent l hl
  rw [stream_append before hloop, stream_append before hcopies,
    stream_loop hhead hblock hloops hrest,
    stream_copies header.count (header?_of_mem_map_outdent hloops) hrest',
    filterMap_event?_map_outdent]

end Line

namespace Run

/-- Scripts with the same stream up to the line numbers leave the same run behind, up to the line of
the fault. -/
theorem ofScript_congr {s t : String}
    (h : (Line.stream (Line.ofScript s)).map (Event.atLine 0) =
      (Line.stream (Line.ofScript t)).map (Event.atLine 0)) (options : Options) :
    (ofScript s options).steps = (ofScript t options).steps ∧
      (ofScript s options).pathLength = (ofScript t options).pathLength ∧
      (ofScript s options).totalTurns = (ofScript t options).totalTurns ∧
      (ofScript s options).fault.map (Fault.atLine 0) =
        (ofScript t options).fault.map (Fault.atLine 0) := by
  have hcommands : Command.ofScript s = Command.ofScript t := by
    rw [Command.ofScript, ← Event.commands_map_atLine 0, h, Event.commands_map_atLine,
      Command.ofScript]
  have hfault := congrArg Event.firstFault? h
  rw [Event.firstFault?_map_atLine, Event.firstFault?_map_atLine] at hfault
  rw [ofScript_eq_ofStream, ofScript_eq_ofStream, hcommands]
  refine ⟨rfl, rfl, rfl, ?_⟩
  simp only [ofCommands]
  split
  · exact hfault
  · rfl

/-- A loop means its body as often as its header says. The copies are the lines of the body in
column 0, without their indentation or without any blanks around them. -/
theorem ofScript_unroll (options : Options) {before body copy after : List String} {head : String}
    {header : LoopHeader}
    (hlines : ∀ s ∈ before ++ head :: body ++ copy ++ after, '\n' ∉ s.toList)
    (hhead : (Line.ofText head).statement = .ok (.header header))
    (hindent : (Line.ofText head).indent = 0)
    (hbody : ∀ s ∈ body, (Line.ofText s).text = "" ∨ 0 < (Line.ofText s).indent)
    (hloops : ∀ s ∈ body, (Line.ofText s).opensLoop = false)
    (hcopy : List.Forall₂ (fun s t ↦ Line.ofText t = (Line.ofText s).outdent) body copy)
    (hafter : ∀ s ∈ after.head?, (Line.ofText s).text ≠ "" ∧ (Line.ofText s).indent = 0) :
    let run (lines : List String) := ofScript ("\n".intercalate lines) options
    let looped := run (before ++ (head :: body ++ after))
    let unrolled := run (before ++ ((List.replicate header.count copy).flatten ++ after))
    looped.steps = unrolled.steps ∧
      looped.pathLength = unrolled.pathLength ∧
      looped.totalTurns = unrolled.totalTurns ∧
      looped.fault.map (Fault.atLine 0) = unrolled.fault.map (Fault.atLine 0) := by
  intro run looped unrolled
  have hlooped : ∀ s ∈ before ++ (head :: body ++ after), '\n' ∉ s.toList := by
    intro s hs
    refine hlines s ?_
    simp only [List.mem_append, List.mem_cons] at hs ⊢
    tauto
  have hunrolled : ∀ s ∈ before ++ ((List.replicate header.count copy).flatten ++ after),
      '\n' ∉ s.toList := by
    intro s hs
    refine hlines s ?_
    simp only [List.mem_append, List.mem_cons, List.mem_flatten, List.mem_replicate] at hs ⊢
    rcases hs with hs | ⟨l, ⟨-, rfl⟩, hs⟩ | hs
    · tauto
    · tauto
    · tauto
  have hblock : ∀ l ∈ body.map Line.ofText, l.inBody := by
    intro l hl
    obtain ⟨s, hs, rfl⟩ := List.mem_map.1 hl
    simpa [Line.inBody] using hbody s hs
  have hopens : ∀ l ∈ body.map Line.ofText, l.opensLoop = false := by
    intro l hl
    obtain ⟨s, hs, rfl⟩ := List.mem_map.1 hl
    exact hloops s hs
  have hrest : Line.body (after.map Line.ofText) = [] := by
    cases after with
    | nil => rfl
    | cons s after =>
      obtain ⟨htext, hzero⟩ := hafter s rfl
      exact List.takeWhile_cons_of_neg (by simp [Line.inBody, htext, hzero])
  have hcopies : copy.map Line.ofText = (body.map Line.ofText).map Line.outdent := by
    clear hlines hbody hloops hlooped hunrolled hblock hopens
    induction hcopy with
    | nil => rfl
    | cons ht _ ih => simp only [List.map_cons, ht, ih]
  refine ofScript_congr ?_ options
  rw [Line.stream_intercalate hlooped, Line.stream_intercalate hunrolled]
  simp only [List.map_append, List.map_cons, List.map_flatten, List.map_replicate, hcopies]
  exact Line.stream_unroll _ (Section.header?_eq_some_iff.2 hhead) hindent hblock hopens hrest

/-- A loop after another one, with a fault in its body that the first repetition meets. -/
theorem ofScript_unroll_after_loop :
    let run (lines : List String) := ofScript ("\n".intercalate lines) { color := "red" }
    let looped := run (["for j in range(3):", "  fd(1)"] ++
      ("for i in range(2):" :: ["", "\tpu()", "  lt(x)"] ++ ["pd()"]))
    let unrolled := run (["for j in range(3):", "  fd(1)"] ++
      ((List.replicate 2 ["", "pu()", "lt(x)"]).flatten ++ ["pd()"]))
    looped.steps = unrolled.steps ∧
      looped.pathLength = unrolled.pathLength ∧
      looped.totalTurns = unrolled.totalTurns ∧
      looped.fault.map (Fault.atLine 0) = unrolled.fault.map (Fault.atLine 0) :=
  @ofScript_unroll { color := "red" } ["for j in range(3):", "  fd(1)"] ["", "\tpu()", "  lt(x)"]
    ["", "pu()", "lt(x)"] ["pd()"] "for i in range(2):" ⟨"i", 2⟩
    (by decide +kernel)
    (Section.header?_eq_some_iff.1 (by decide +kernel))
    (by decide +kernel)
    (by decide +kernel)
    (by decide +kernel)
    (.cons (by decide +kernel) (.cons (by decide +kernel) (.cons (by decide +kernel) .nil)))
    (by decide +kernel)

end Run

end TurtleGraphics
