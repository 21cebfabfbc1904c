import TurtleGraphics.Proofs.Run.Replay
import TurtleGraphics.Proofs.Script.Location
import TurtleGraphics.Proofs.Script.Margin
import TurtleGraphics.Proofs.Statement.Opening

/-!
# Runs that fail

A run that meets a fault leaves behind what it would have without the line at fault and all that
comes after it. What is left of the script is the lines before it, or, if the fault is in the body
of a loop, the lines before the loop and, once, the lines of the body before the fault; a loop in
the body of another one is found before the body is followed at all. Main statement:
`Run.ofScript_of_fault`.
-/

namespace TurtleGraphics

namespace Line

/-- Commands alone have no line that could be counted in another way. -/
theorem stream_map_renumber_of_commands {lines : List Line} {cs : List Command} (n : Nat)
    (h : stream lines = cs.map .command) : stream (lines.map (renumber n)) = cs.map .command := by
  rw [stream_map_renumber, h, List.map_map]
  rfl

/-- The stream of lines and of lines without loops and faults behind them, in column 0. -/
theorem stream_append_outdent {outer inner : List Line} {ds es : List Command}
    (houter : stream outer = ds.map .command) (hloops : ∀ l ∈ inner, l.opensLoop = false)
    (hinner : inner.filterMap event? = es.map .command) :
    stream (outer ++ inner.map outdent) = (ds ++ es).map .command := by
  have hdetached : Detached (inner.map outdent ++ []) :=
    detached_append indent_of_mem_map_outdent (by simp [Detached, body])
  rw [List.append_nil] at hdetached
  rw [stream_append outer hdetached, stream_eq_filterMap (header?_of_mem_map_outdent hloops),
    filterMap_event?_map_outdent, hinner, houter, Event.upToFault_append_upToFault,
    ← List.map_append]
  exact Event.upToFault_map_command (ds ++ es)

/-- A fault bears the number of the line it is found on. -/
theorem FoundAt.line_eq {f : Fault} {cs : List Command} {before : List Line} {l : Line}
    (h : FoundAt f cs before l) : f.line = l.number := by
  cases h with
  | top _ hl => exact (Statement.fault_of_ofTokens hl).1
  | inner _ _ _ hl => exact (Statement.fault_of_ofTokens hl).1
  | nested _ _ _ _ hf => rw [hf, Fault.line_nestedLoop]

/-- A fault that is no nested loop is what the line says by itself. -/
theorem FoundAt.statement {f : Fault} {cs : List Command} {before : List Line} {l : Line}
    (h : FoundAt f cs before l) (hf : f ≠ .nestedLoop l.number) : l.statement = .error f := by
  cases h with
  | top _ hl => exact hl
  | inner _ _ _ hl => exact hl
  | nested _ _ _ _ hnested => exact absurd hnested hf

/-- A nested loop is the first loop in the body of another one. -/
theorem FoundAt.exists_encloses {f : Fault} {cs : List Command} {before : List Line} {l : Line}
    (h : FoundAt f cs before l) (hf : f = .nestedLoop l.number) :
    l.opensLoop ∧ ∃ outer head inner, before = outer ++ head :: inner ∧ Encloses head inner l ∧
      ∀ x ∈ inner, x.opensLoop = false := by
  cases h with
  | top _ hl => exact absurd hf ((Statement.fault_of_ofTokens hl).2 _)
  | inner _ _ _ hl => exact absurd hf ((Statement.fault_of_ofTokens hl).2 _)
  | nested _ hencloses hloops hl _ => exact ⟨hl, _, _, _, rfl, hencloses, hloops⟩

end Line

namespace Run

/-- Lines that give the commands of a script before its fault leave the same run behind, without the
fault. -/
theorem ofScript_eq_without_fault {script : String} {lines : List String} (options : Options)
    (hlines : ∀ s ∈ lines, '\n' ∉ s.toList)
    (h : Line.stream (lines.map Line.ofText) = (Command.ofScript script).map .command) :
    ofScript ("\n".intercalate lines) options =
      { ofScript script options with fault := none } := by
  rw [ofScript_intercalate hlines h, ofScript_eq_ofStream]
  simp [ofCommands]

theorem firstFault?_of_fault {script : String} {options : Options} {f : Fault}
    (h : (ofScript script options).fault = some f) :
    Event.firstFault? (Line.stream (Line.ofScript script)) = some f := by
  rw [ofScript_eq_ofStream] at h
  simp only [ofCommands] at h
  split at h
  · exact h
  · cases h

/-- A fault is on a line of the script and comes from that line alone, or from a loop that it opens
in the body of another one. The lines that were walked before it, the first repetition of a body
written out in column 0, leave the same run behind without the fault: the line at fault and all that
comes after it leave no trace. -/
theorem ofScript_of_fault {script : String} {options : Options} {f : Fault}
    (hf : (ofScript script options).fault = some f) :
    let texts := Line.texts script
    let Clean (lines : List String) : Prop :=
      ofScript ("\n".intercalate lines) options = { ofScript script options with fault := none }
    ∃ before l after, Line.ofScript script = before ++ l :: after ∧
      l.number = f.line ∧ f.line = before.length + 1 ∧
      (f ≠ .nestedLoop f.line → l.statement = .error f) ∧
      (f = .nestedLoop f.line → l.opensLoop ∧ ∃ outer head inner,
        before = outer ++ head :: inner ∧ head.Encloses inner l ∧
          ∀ x ∈ inner, x.opensLoop = false) ∧
      (Line.AtTop before l → Clean (texts.take before.length)) ∧
      ∀ outer head inner, before = outer ++ head :: inner → head.Encloses inner l →
        (f = .nestedLoop f.line → Clean (texts.take outer.length)) ∧
        (f ≠ .nestedLoop f.line → ∀ copy,
          List.Forall₂ Line.Moved ((texts.take before.length).drop (outer.length + 1)) copy →
            Clean (texts.take outer.length ++ copy)) := by
  intro texts Clean
  obtain ⟨before, l, after, hlines, hfound⟩ := Line.exists_foundAt (firstFault?_of_fault hf)
  change Line.FoundAt f (Command.ofScript script) before l at hfound
  have hnumber : f.line = before.length + 1 :=
    hfound.line_eq.trans (Line.number_of_ofScript_eq hlines)
  have hnewline (n : Nat) : ∀ s ∈ texts.take n, '\n' ∉ s.toList :=
    fun s hs ↦ Line.newline_notMem_of_mem_texts (List.mem_of_mem_take hs)
  -- The first lines of the script are clean if they give all the commands before the fault.
  have hclean {xs ys : List Line} (hxs : Line.ofScript script = xs ++ ys)
      (hstream : Line.stream xs = (Command.ofScript script).map .command) :
      Clean (texts.take xs.length) := by
    refine ofScript_eq_without_fault options (hnewline _) ?_
    rw [Line.map_ofText_take_texts hxs]
    exact Line.stream_map_renumber_of_commands 0 hstream
  refine ⟨before, l, after, hlines, hfound.line_eq.symm, hnumber, ?_, ?_, ?_, ?_⟩
  · rw [hfound.line_eq]
    exact hfound.statement
  · rw [hfound.line_eq]
    exact hfound.exists_encloses
  · intro htop
    exact hclean hlines (hfound.stream_of_atTop htop)
  · rintro outer head inner rfl hencloses
    have houter : Line.ofScript script = outer ++ (head :: inner ++ l :: after) := by
      rw [hlines, List.append_assoc]
    rcases hfound.stream_of_encloses hencloses with
      ⟨hf, hstream⟩ | ⟨hl, hloops, ds, es, hcs, hds, hes⟩
    · refine ⟨fun _ ↦ hclean houter hstream, fun hne ↦ absurd ?_ hne⟩
      rw [hf, Fault.line_nestedLoop]
    · refine ⟨fun heq ↦ absurd heq ((Statement.fault_of_ofTokens hl).2 _), fun _ copy hcopy ↦ ?_⟩
      refine ofScript_eq_without_fault options ?_ ?_
      · rintro s hs
        rcases List.mem_append.1 hs with hs | hs
        · exact hnewline _ s hs
        · exact Line.newline_notMem_of_moved hcopy s hs
      · have hinner : ((texts.take (outer ++ head :: inner).length).drop (outer.length + 1)).map
            Line.ofText = inner.map (Line.renumber 0) := by
          rw [List.map_drop, Line.map_ofText_take_texts hlines, ← List.map_drop, List.append_cons,
            List.drop_left' (by simp)]
        rw [List.map_append, Line.map_ofText_of_moved hcopy, hinner,
          Line.map_ofText_take_texts houter, hcs, ← Line.stream_map_renumber_of_commands 0
            (Line.stream_append_outdent hds hloops hes)]
        simp only [List.map_append, List.map_map]
        rfl

/-- A fault in the body of a loop, met in the first of three repetitions. -/
theorem ofScript_of_fault_in_body :
    let run := ofScript "fd(1)\nfor i in range(3):\n\tfd(2)\n\n  lt(x)\nbk(1)" { color := "red" }
    run.fault = some (.argument 5 "lt" "`x` is not a number") ∧
      ofScript ("\n".intercalate ["fd(1)", "fd(2)", ""]) { color := "red" } =
        { run with fault := none } := by
  intro run
  have hf : run.fault = some (.argument 5 "lt" "`x` is not a number") := by decide +kernel
  have hscript : Line.ofScript "fd(1)\nfor i in range(3):\n\tfd(2)\n\n  lt(x)\nbk(1)" =
      ([⟨1, 0, "fd(1)"⟩] ++ ⟨2, 0, "for i in range(3):"⟩ :: [⟨3, 1, "fd(2)"⟩, ⟨4, 0, ""⟩]) ++
        [⟨5, 2, "lt(x)"⟩, ⟨6, 0, "bk(1)"⟩] := by decide +kernel
  have htexts : Line.texts "fd(1)\nfor i in range(3):\n\tfd(2)\n\n  lt(x)\nbk(1)" =
      ["fd(1)", "for i in range(3):", "\tfd(2)", "", "  lt(x)", "bk(1)"] := by decide +kernel
  have hcopy : List.Forall₂ Line.Moved ["\tfd(2)", ""] ["fd(2)", ""] :=
    .cons ⟨by decide, by decide +kernel⟩ (.cons ⟨by decide, by decide +kernel⟩ .nil)
  obtain ⟨before, l, after, hlines, -, hbefore, -, -, -, hbody⟩ := ofScript_of_fault hf
  obtain ⟨rfl, htail⟩ := List.append_inj (hscript.symm.trans hlines) (Nat.succ.inj hbefore)
  obtain ⟨rfl, rfl⟩ := List.cons.inj htail
  have hencloses : Line.Encloses ⟨2, 0, "for i in range(3):"⟩ [⟨3, 1, "fd(2)"⟩, ⟨4, 0, ""⟩]
      ⟨5, 2, "lt(x)"⟩ :=
    ⟨⟨⟨"i", 3⟩, Section.header?_eq_some_iff.1 (by decide +kernel)⟩, by decide⟩
  rw [htexts] at hbody
  exact ⟨hf, (hbody _ _ _ rfl hencloses).2 (by decide) _ hcopy⟩

end Run

end TurtleGraphics
