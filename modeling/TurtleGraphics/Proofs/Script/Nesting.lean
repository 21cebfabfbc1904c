import TurtleGraphics.Proofs.Script.Location
import TurtleGraphics.Proofs.Statement.Opening

/-!
# Loops in the body of a loop

A line is found to open a loop in two ways: by its first word alone, when the body of a loop is
gathered, and by reading it as a whole, when it is its turn. Both agree on every text, whether the
loop is well formed or not (`Statement.opensLoop_iff_concernsLoop`). So a body that passes the first
check has no header in it, and what would be done about one there makes no difference; a loop in the
body of another one ends the run as a nested loop. Main statement: `Run.nested_loop_reported`.
-/

namespace TurtleGraphics

/-- Whether what a line says concerns a loop: it is the header of one, or fails to be one. -/
inductive Statement.ConcernsLoop : Except Fault Statement → Prop
  | header (h : LoopHeader) : ConcernsLoop (.ok (.header h))
  | badHeader (line : Nat) (detail : String) : ConcernsLoop (.error (.header line detail))

open Statement (ConcernsLoop)

namespace Statement

variable {line : Nat} {ts : Tokens}

/-- The first word tells whether the whole line concerns a loop. -/
theorem opensLoop_iff_concernsLoop : ts.opensLoop ↔ ConcernsLoop (ofTokens line ts) := by
  have hsorted := sorted_ofTokens line ts
  generalize ofTokens line ts = said at hsorted
  constructor
  · intro hopens
    obtain ⟨rest, rfl⟩ : ∃ rest, ts = .cons (.word "for") rest := by
      unfold Tokens.opensLoop at hopens
      split at hopens
      · rename_i word rest
        obtain rfl : word = "for" := by simpa using hopens
        exact ⟨rest, rfl⟩
      · cases hopens
    cases hsorted with
    | header => exact .header _
    | badHeader _ detail => exact .badHeader line detail
    | command h hfirst =>
      cases h with
      | bare => exact absurd rfl hfirst
      | qualified => exact absurd rfl hfirst
    | badCommand h hfirst =>
      cases h with
      | bare => exact absurd rfl hfirst
      | qualified => exact absurd rfl hfirst
    | passed h => exact absurd rfl ((passed_iff.1 h).2.1 rest)
  · intro hsaid
    cases hsaid with
    | header h =>
      cases hsorted with
      | header hts =>
        obtain ⟨_, ⟨v, d⟩, rfl⟩ := hts
        rfl
    | badHeader n detail =>
      cases hsorted with
      | badHeader => rfl

end Statement

namespace Line

theorem opensLoop_iff_concernsLoop {l : Line} : l.opensLoop ↔ ConcernsLoop l.statement :=
  Statement.opensLoop_iff_concernsLoop

theorem opensLoop_eq_false_iff {l : Line} : l.opensLoop = false ↔ ¬ ConcernsLoop l.statement := by
  rw [← opensLoop_iff_concernsLoop, Bool.not_eq_true]

/-- What the line makes happen if headers make happen what `arm` says. -/
def eventWith (arm : LoopHeader → Option Event) (l : Line) : Option Event :=
  match l.statement with
  | .ok (.header h) => arm h
  | _ => l.event?

theorem eventWith_of_opensLoop_eq_false {l : Line} (h : l.opensLoop = false)
    (arm : LoopHeader → Option Event) : l.eventWith arm = l.event? := by
  unfold eventWith
  split
  · rename_i header hl
    exact absurd (hl ▸ .header header) (opensLoop_eq_false_iff.1 h)
  · rfl

/-- Whether `l` is the first of the lines that concerns a loop. -/
def IsFirstLoop (block : List Line) (l : Line) : Prop :=
  ∃ inner after, block = inner ++ l :: after ∧ ConcernsLoop l.statement ∧
    ∀ x ∈ inner, ¬ ConcernsLoop x.statement

/-- A body with a loop in it is at fault on the first line that concerns one. -/
theorem exists_nested?_eq_some {block : List Line} (h : ∃ l ∈ block, ConcernsLoop l.statement) :
    ∃ l, IsFirstLoop block l ∧ nested? block = some (.nestedLoop l.number) := by
  cases hn : nested? block with
  | none =>
    obtain ⟨l, hl, hsaid⟩ := h
    exact absurd hsaid (opensLoop_eq_false_iff.1 (nested?_eq_none_iff.1 hn l hl))
  | some fault =>
    obtain ⟨inner, l, after, hblock, hl, hinner, rfl⟩ := exists_of_nested? hn
    exact ⟨l, ⟨inner, after, hblock, opensLoop_iff_concernsLoop.1 hl,
      fun x hx ↦ opensLoop_eq_false_iff.1 (hinner x hx)⟩, rfl⟩

end Line

namespace Loop

variable {lines : List Line} {i : Nat} {header : LoopHeader} {loop : Loop}

theorem scan_eq_ok_iff : scan lines i header = .ok loop ↔
    Line.nested? (Line.body (lines.drop (i + 1))) = none ∧
      loop = ⟨header, Line.body (lines.drop (i + 1)),
        i + 1 + (Line.body (lines.drop (i + 1))).length⟩ := by
  simp only [scan]
  split
  · rename_i fault hn
    simp [hn]
  · rename_i hn
    simp [hn, eq_comm]

theorem scan_eq_error_iff {fault : Fault} : scan lines i header = .error fault ↔
    Line.nested? (Line.body (lines.drop (i + 1))) = some fault := by
  simp only [scan]
  split
  · rename_i fault hn
    simp [hn]
  · rename_i hn
    simp [hn]

end Loop

namespace Run

/-- The first word of a line tells whether the line as a whole is a header or fails to be one.
So no line in the body of a loop that was found is either, and whatever headers were to make happen
there would not happen; a body with such a line is at fault on the first of them, which ends a run
that comes to the loop, however often the body was to be repeated. -/
theorem nested_loop_reported :
    (∀ line text, (Tokens.ofString text).opensLoop ↔
      ConcernsLoop (Statement.ofString line text)) ∧
    (∀ lines i header loop, Loop.scan lines i header = .ok loop →
      (∀ l ∈ loop.body, ¬ ConcernsLoop l.statement) ∧
      ∀ arm, loop.body.filterMap (Line.eventWith arm) = loop.body.filterMap Line.event?) ∧
    (∀ lines i header, (∃ l ∈ Line.body (lines.drop (i + 1)), ConcernsLoop l.statement) →
      ∃ l, Line.IsFirstLoop (Line.body (lines.drop (i + 1))) l ∧
        Loop.scan lines i header = .error (.nestedLoop l.number)) ∧
    (∀ script options before head header body after t,
      sections (Line.ofScript script) = before ++ .loop head header body :: after →
      Trail.performAll options.maxSteps before (.start options.color) = .ok t →
      (∃ l ∈ body, ConcernsLoop l.statement) →
      ∃ l, Line.IsFirstLoop body l ∧
        ofScript script options = ofTrail t (some (.nestedLoop l.number))) := by
  refine ⟨fun line text ↦ Statement.opensLoop_iff_concernsLoop, ?_, ?_, ?_⟩
  · intro lines i header loop hscan
    obtain ⟨hn, rfl⟩ := Loop.scan_eq_ok_iff.1 hscan
    have hloops := Line.nested?_eq_none_iff.1 hn
    exact ⟨fun l hl ↦ Line.opensLoop_eq_false_iff.1 (hloops l hl), fun arm ↦
      List.filterMap_congr fun l hl ↦ Line.eventWith_of_opensLoop_eq_false (hloops l hl) arm⟩
  · intro lines i header h
    obtain ⟨l, hl, hn⟩ := Line.exists_nested?_eq_some h
    exact ⟨l, hl, Loop.scan_eq_error_iff.2 hn⟩
  · intro script options before head header body after t hsections hbefore h
    obtain ⟨l, hl, hn⟩ := Line.exists_nested?_eq_some h
    have hloop : t.perform options.maxSteps (.loop head header body) =
        .error (t, .fault (.nestedLoop l.number)) := by
      rw [Trail.perform, hn]
    refine ⟨l, hl, ?_⟩
    rw [ofScript, ofLines, hsections, Trail.performAll, List.foldlM_append, ← Trail.performAll,
      hbefore]
    change ofProgress (t.perform options.maxSteps (.loop head header body) >>= _) = _
    rw [hloop]
    rfl

/-- A malformed loop in the body of a loop that is never repeated. -/
theorem nested_loop_reported_without_repetition :
    let body : List Line := [⟨3, 2, "lt(90)"⟩, ⟨4, 1, "for j:"⟩]
    sections (Line.ofScript "pu()\nfor i in range(0):\n  lt(90)\n\tfor j:\nfd(1)") =
        [.line ⟨1, 0, "pu()"⟩] ++ .loop ⟨2, 0, "for i in range(0):"⟩ ⟨"i", 0⟩ body ::
          [.line ⟨5, 0, "fd(1)"⟩] ∧
      ofScript "pu()\nfor i in range(0):\n  lt(90)\n\tfor j:\nfd(1)" =
        ofTrail ((Trail.start defaultColor).record .penUp) (some (.nestedLoop 4)) := by
  intro body
  have hsections : sections (Line.ofScript "pu()\nfor i in range(0):\n  lt(90)\n\tfor j:\nfd(1)") =
      [.line ⟨1, 0, "pu()"⟩] ++ .loop ⟨2, 0, "for i in range(0):"⟩ ⟨"i", 0⟩ body ::
        [.line ⟨5, 0, "fd(1)"⟩] := by decide +kernel
  have htokens : Tokens.ofString "pu()" = .ofList [.word "pu", .leftParen, .rightParen] := by
    decide +kernel
  have hbefore : Trail.performAll 1000 [.line ⟨1, 0, "pu()"⟩] (.start defaultColor) =
      .ok ((Trail.start defaultColor).record .penUp) := by
    have hevent : Line.event? ⟨1, 0, "pu()"⟩ = some (.command .penUp) := by
      rw [Line.event?, Line.statement, Statement.ofString, htokens]
      rfl
    rw [Trail.performAll, List.foldlM_cons, Trail.perform, hevent]
    rfl
  have hloop : ∃ l ∈ body, ConcernsLoop l.statement :=
    ⟨⟨4, 1, "for j:"⟩, by decide, Line.opensLoop_iff_concernsLoop.1 (by decide +kernel)⟩
  obtain ⟨l, ⟨inner, after, hbody, hl, hinner⟩, hrun⟩ :=
    nested_loop_reported.2.2.2 _ {} _ _ _ _ _ _ hsections hbefore hloop
  have hfirst : ¬ ConcernsLoop (Line.statement ⟨3, 2, "lt(90)"⟩) :=
    Line.opensLoop_eq_false_iff.1 (by decide +kernel)
  refine ⟨hsections, ?_⟩
  cases inner with
  | nil =>
    obtain ⟨rfl, -⟩ := List.cons.inj hbody
    exact absurd hl hfirst
  | cons x inner =>
    obtain ⟨rfl, htail⟩ := List.cons.inj hbody
    cases inner with
    | nil =>
      obtain ⟨rfl, -⟩ := List.cons.inj htail
      exact hrun
    | cons y inner => simp at htail

end Run

end TurtleGraphics
