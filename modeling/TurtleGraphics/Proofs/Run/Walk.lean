import TurtleGraphics.Proofs.Run.Replay
import TurtleGraphics.Proofs.Script.Nesting
import TurtleGraphics.Proofs.Script.Numbering

/-!
# Walking a script by index

A run can be followed along the indices of the lines: it stands at an index, does what the line
there asks for, and goes on at the next index or, behind a loop, at the first index that is not in
its body. Each turn of the walk moves forward and stays within the script, so the walk ends; what it
visits are the indices from 0 on, each once and in order, and all of them unless the run ends before
its script does. Main statement: `Run.ofScript_visits_once`.
-/

namespace TurtleGraphics

/-! ## Where a loop ends -/

namespace Loop

variable {lines : List Line} {i : Nat} {header : LoopHeader} {loop : Loop}

theorem lt_resume (h : scan lines i header = .ok loop) : i < loop.resume := by
  obtain ⟨-, rfl⟩ := scan_eq_ok_iff.1 h
  change i < i + 1 + _
  omega

theorem resume_le (h : scan lines i header = .ok loop) (hi : i < lines.length) :
    loop.resume ≤ lines.length := by
  obtain ⟨-, rfl⟩ := scan_eq_ok_iff.1 h
  have hlength : (Line.body (lines.drop (i + 1))).length ≤ (lines.drop (i + 1)).length :=
    (List.takeWhile_sublist _).length_le
  rw [List.length_drop] at hlength
  change i + 1 + _ ≤ lines.length
  omega

theorem body_eq (h : scan lines i header = .ok loop) :
    loop.body = (lines.take loop.resume).drop (i + 1) := by
  obtain ⟨-, rfl⟩ := scan_eq_ok_iff.1 h
  have hsplit := Line.body_append_afterBody (lines.drop (i + 1))
  rw [List.drop_take, Nat.add_sub_cancel_left]
  exact (List.take_left' rfl).symm.trans (congrArg (List.take _) hsplit)

/-- What stands from the end of the loop on is what follows its body. -/
theorem drop_resume (h : scan lines i header = .ok loop) :
    lines.drop loop.resume = Line.afterBody (lines.drop (i + 1)) := by
  obtain ⟨-, rfl⟩ := scan_eq_ok_iff.1 h
  have hsplit := Line.body_append_afterBody (lines.drop (i + 1))
  rw [← List.drop_drop]
  exact (congrArg (List.drop _) hsplit.symm).trans (List.drop_left' rfl)

/-- The line at the end of the loop, if there is one, has text in column 0. -/
theorem inBody_resume (h : scan lines i header = .ok loop) {l : Line}
    (hl : lines[loop.resume]? = some l) : l.inBody = false := by
  have hnot := List.head?_dropWhile_not Line.inBody (lines.drop (i + 1))
  rw [← Line.afterBody, ← drop_resume h, List.head?_drop, hl] at hnot
  exact hnot

end Loop

namespace Line

theorem inBody_iff {l : Line} : l.inBody ↔ l.text = "" ∨ 0 < l.indent := by
  simp [inBody]

theorem inBody_eq_false_iff {l : Line} : l.inBody = false ↔ l.text ≠ "" ∧ l.indent = 0 := by
  simp [inBody]

theorem ofPieces_eq_mapIdx (first : Nat) (pieces : List (List Char)) :
    ofPieces first pieces = pieces.mapIdx fun i cs ↦ ofChars (first + i) cs := by
  induction pieces generalizing first with
  | nil => rfl
  | cons cs pieces ih =>
    rw [ofPieces, ih, List.mapIdx_cons]
    simp only [Nat.add_zero, Nat.add_assoc, Nat.add_comm 1]

/-- There is a line for every piece of the script between newlines, numbered from 1 on. -/
theorem ofScript_eq_mapIdx (script : String) :
    ofScript script = (texts script).mapIdx fun i s ↦ ofChars (i + 1) s.toList := by
  rw [ofScript_eq_ofPieces, ofPieces_eq_mapIdx]
  apply List.ext_getElem?
  intro i
  simp [Function.comp_def, Nat.add_comm 1]

end Line

/-! ## The walk -/

/-- What a walk visits at once. -/
inductive Visit where
  /-- The line at an index, at top level. -/
  | top (i : Nat)
  /-- The body of a loop: the lines from index `start` on, up to before `stop`. -/
  | body (start stop : Nat)
deriving DecidableEq, Repr

/-- The indices of the lines visited. -/
def Visit.indices : Visit → List Nat
  | top i => [i]
  | body start stop => List.range' start (stop - start)

/-- Whether the visit is one of the script with the given lines: a body is that of a loop which is
found at the header before it. -/
def Visit.IsOf (lines : List Line) : Visit → Prop
  | top i => i < lines.length
  | body start stop => ∃ i l header loop, start = i + 1 ∧ lines[i]? = some l ∧
      l.statement = .ok (.header header) ∧ Loop.scan lines i header = .ok loop ∧
      stop = loop.resume

/-- Goes on with the commands of a loop. -/
def Trail.expand (maxSteps : Nat) (t : Trail) (loop : Loop) : Progress :=
  match loop.body.filterMap Line.event? with
  | [] => .ok t
  | events => t.repeatAll maxSteps events loop.header.count

/-- One turn of a walk. -/
structure Turn where
  visits : List Visit
  /-- The index where the walk goes on. -/
  next : Nat
  progress : Progress

/-- The turn at the line `l`, which has the index `i`. -/
def Turn.ofLine (maxSteps : Nat) (lines : List Line) (i : Nat) (l : Line) (t : Trail) : Turn :=
  match l.statement with
  | .error fault => ⟨[.top i], i + 1, .error (t, .fault fault)⟩
  | .ok (.command c) => ⟨[.top i], i + 1, t.obey maxSteps c⟩
  | .ok (.header header) =>
    match Loop.scan lines i header with
    | .error fault => ⟨[.top i], i + 1, .error (t, .fault fault)⟩
    | .ok loop => ⟨[.top i, .body (i + 1) loop.resume], loop.resume, t.expand maxSteps loop⟩
  | .ok .blank | .ok .other => ⟨[.top i], i + 1, .ok t⟩

namespace Turn

variable {maxSteps : Nat} {lines : List Line} {i : Nat} {l : Line} {t : Trail}
  {header : LoopHeader} {loop : Loop} {fault : Fault}

theorem ofLine_of_header?_eq_none (h : Section.header? l = none) :
    ofLine maxSteps lines i l t = ⟨[.top i], i + 1, t.perform maxSteps (.line l)⟩ := by
  rw [Trail.perform, Line.event?]
  unfold ofLine
  cases hl : l.statement with
  | error fault => rfl
  | ok s =>
    cases s with
    | header header => simp [Section.header?, hl] at h
    | command c => exact congrArg (Turn.mk _ _) (bind_pure _).symm
    | blank => rfl
    | other => rfl

theorem ofLine_of_scan_eq_ok (h : Section.header? l = some header)
    (hscan : Loop.scan lines i header = .ok loop) :
    ofLine maxSteps lines i l t =
      ⟨[.top i, .body (i + 1) loop.resume], loop.resume,
        t.perform maxSteps (.loop l header (Line.body (lines.drop (i + 1))))⟩ := by
  unfold ofLine
  simp only [Section.header?_eq_some_iff.1 h, hscan]
  obtain ⟨hn, rfl⟩ := Loop.scan_eq_ok_iff.1 hscan
  rw [Trail.perform, hn]
  rfl

theorem ofLine_of_scan_eq_error (h : Section.header? l = some header)
    (hscan : Loop.scan lines i header = .error fault) :
    ofLine maxSteps lines i l t = ⟨[.top i], i + 1,
      t.perform maxSteps (.loop l header (Line.body (lines.drop (i + 1))))⟩ := by
  unfold ofLine
  simp only [Section.header?_eq_some_iff.1 h, hscan]
  rw [Trail.perform, Loop.scan_eq_error_iff.1 hscan]

/-- What a turn may be: at a loop that is found it takes the header and the body, at any other line
this line alone. -/
theorem ofLine_cases (maxSteps : Nat) (lines : List Line) (i : Nat) (l : Line) (t : Trail) :
    (∃ header loop, Section.header? l = some header ∧ Loop.scan lines i header = .ok loop ∧
      ofLine maxSteps lines i l t =
        ⟨[.top i, .body (i + 1) loop.resume], loop.resume,
          t.perform maxSteps (.loop l header (Line.body (lines.drop (i + 1))))⟩) ∨
    ∃ progress, ofLine maxSteps lines i l t = ⟨[.top i], i + 1, progress⟩ := by
  cases h : Section.header? l with
  | none => exact .inr ⟨_, ofLine_of_header?_eq_none h⟩
  | some header =>
    cases hscan : Loop.scan lines i header with
    | error fault => exact .inr ⟨_, ofLine_of_scan_eq_error h hscan⟩
    | ok loop => exact .inl ⟨header, loop, rfl, hscan, ofLine_of_scan_eq_ok h hscan⟩

theorem lt_next (maxSteps : Nat) (lines : List Line) (i : Nat) (l : Line) (t : Trail) :
    i < (ofLine maxSteps lines i l t).next := by
  rcases ofLine_cases maxSteps lines i l t with ⟨header, loop, -, hscan, hturn⟩ | ⟨progress, hturn⟩
  · rw [hturn]
    exact Loop.lt_resume hscan
  · rw [hturn]
    exact Nat.lt_succ_self i

theorem next_le (hi : i < lines.length) : (ofLine maxSteps lines i l t).next ≤ lines.length := by
  rcases ofLine_cases maxSteps lines i l t with ⟨header, loop, -, hscan, hturn⟩ | ⟨progress, hturn⟩
  · rw [hturn]
    exact Loop.resume_le hscan hi
  · rw [hturn]
    exact hi

/-- A turn visits the lines up to where the walk goes on. -/
theorem indices_visits (maxSteps : Nat) (lines : List Line) (i : Nat) (l : Line) (t : Trail) :
    (ofLine maxSteps lines i l t).visits.flatMap Visit.indices =
      List.range' i ((ofLine maxSteps lines i l t).next - i) := by
  rcases ofLine_cases maxSteps lines i l t with ⟨header, loop, -, hscan, hturn⟩ | ⟨progress, hturn⟩
  · have hlt := Loop.lt_resume hscan
    have hlength : loop.resume - i = (loop.resume - (i + 1)) + 1 := by omega
    rw [hturn, hlength, List.range'_succ]
    simp [Visit.indices]
  · rw [hturn, Nat.add_sub_cancel_left]
    rfl

theorem isOf_of_mem_visits (hi : i < lines.length) {v : Visit}
    (hv : v ∈ (ofLine maxSteps lines i lines[i] t).visits) : v.IsOf lines := by
  rcases ofLine_cases maxSteps lines i lines[i] t with
    ⟨header, loop, hheader, hscan, hturn⟩ | ⟨progress, hturn⟩
  · rw [hturn, List.mem_pair] at hv
    rcases hv with rfl | rfl
    · exact hi
    · exact ⟨i, lines[i], header, loop, rfl, List.getElem?_eq_getElem hi,
        Section.header?_eq_some_iff.1 hheader, hscan, rfl⟩
  · rw [hturn, List.mem_singleton] at hv
    subst hv
    exact hi

/-- Walking on behind the turn is walking the sections from its line on. -/
theorem progress_bind (maxSteps : Nat) {lines : List Line} {i : Nat} (hi : i < lines.length)
    (t : Trail) :
    ((ofLine maxSteps lines i lines[i] t).progress >>= Trail.performAll maxSteps
        (sections (lines.drop (ofLine maxSteps lines i lines[i] t).next))) =
      t.performAll maxSteps (sections (lines.drop i)) := by
  rw [List.drop_eq_getElem_cons hi, sections_cons]
  cases h : Section.header? lines[i] with
  | none =>
    rw [ofLine_of_header?_eq_none h]
    rfl
  | some header =>
    cases hscan : Loop.scan lines i header with
    | ok loop =>
      rw [ofLine_of_scan_eq_ok h hscan, Loop.drop_resume hscan]
      rfl
    | error fault =>
      -- A turn that fails goes on nowhere, whatever stands behind it.
      have hfault : t.perform maxSteps (.loop lines[i] header (Line.body (lines.drop (i + 1)))) =
          .error (t, .fault fault) := by
        rw [Trail.perform, Loop.scan_eq_error_iff.1 hscan]
      simp only [ofLine_of_scan_eq_error h hscan, Trail.performAll, List.foldlM_cons, hfault]
      rfl

end Turn

/-- A walk through a script, or through the end of one. -/
structure Walk where
  visits : List Visit
  progress : Progress

namespace Walk

variable {maxSteps : Nat} {lines : List Line} {i : Nat} {t : Trail}

/-- The walk that stands at index `i`. -/
def startingAt (maxSteps : Nat) (lines : List Line) (i : Nat) (t : Trail) : Walk :=
  if hi : i < lines.length then
    let turn := Turn.ofLine maxSteps lines i lines[i] t
    match turn.progress with
    | .error halted => ⟨turn.visits, .error halted⟩
    | .ok t' =>
      let rest := startingAt maxSteps lines turn.next t'
      ⟨turn.visits ++ rest.visits, rest.progress⟩
  else ⟨[], .ok t⟩
termination_by lines.length - i
decreasing_by
  have hlt := Turn.lt_next maxSteps lines i lines[i] t
  omega

/-- A walk visits the indices from where it stands up to some index, and all there are if it comes
to its end. -/
theorem exists_indices_visits (maxSteps : Nat) (lines : List Line) {i : Nat} (t : Trail)
    (hi : i ≤ lines.length) :
    ∃ n, i ≤ n ∧ n ≤ lines.length ∧
      (startingAt maxSteps lines i t).visits.flatMap Visit.indices = List.range' i (n - i) ∧
      ∀ t', (startingAt maxSteps lines i t).progress = .ok t' → n = lines.length := by
  fun_induction startingAt maxSteps lines i t with
  | case1 i t hlt turn e he =>
    have hnext := Turn.lt_next maxSteps lines i lines[i] t
    refine ⟨turn.next, Nat.le_of_lt hnext, Turn.next_le hlt, Turn.indices_visits .., ?_⟩
    intro t' ht'
    cases ht'
  | case2 i t hlt turn t' ht' rest ih =>
    have hnext : i < turn.next := Turn.lt_next maxSteps lines i lines[i] t
    obtain ⟨n, hle, hn, hrest, hend⟩ := ih (Turn.next_le hlt)
    refine ⟨n, by omega, hn, ?_, hend⟩
    have hturn : turn.visits.flatMap Visit.indices = List.range' i (turn.next - i) :=
      Turn.indices_visits ..
    have hlength : n - i = (turn.next - i) + (n - turn.next) := by omega
    have hstart : turn.next = i + (turn.next - i) := by omega
    rw [List.flatMap_append, hturn, hrest, hlength, ← List.range'_append_1, ← hstart]
  | case3 i t hge =>
    refine ⟨i, Nat.le_refl i, hi, ?_, fun _ _ ↦ by omega⟩
    rw [Nat.sub_self]
    rfl

theorem isOf_of_mem_visits {v : Visit} (hv : v ∈ (startingAt maxSteps lines i t).visits) :
    v.IsOf lines := by
  fun_induction startingAt maxSteps lines i t with
  | case1 i t hlt turn e he => exact Turn.isOf_of_mem_visits hlt hv
  | case2 i t hlt turn t' ht' rest ih =>
    rcases List.mem_append.1 hv with hv | hv
    · exact Turn.isOf_of_mem_visits hlt hv
    · exact ih hv
  | case3 i t hge => cases hv

/-- The walk by index is the walk along the sections. -/
theorem progress_startingAt (maxSteps : Nat) (lines : List Line) (i : Nat) (t : Trail) :
    (startingAt maxSteps lines i t).progress =
      t.performAll maxSteps (sections (lines.drop i)) := by
  fun_induction startingAt maxSteps lines i t with
  | case1 i t hlt turn e he =>
    have hturn := Turn.progress_bind maxSteps hlt t
    rw [he] at hturn
    exact hturn
  | case2 i t hlt turn t' ht' rest ih =>
    have hturn := Turn.progress_bind maxSteps hlt t
    rw [ht'] at hturn
    exact ih.trans hturn
  | case3 i t hge =>
    rw [List.drop_eq_nil_of_le (Nat.not_lt.1 hge), sections_nil]
    rfl

end Walk

namespace Run

/-- The walk of a script by index is its run. It visits every line once, at top level or in the body
of a loop, in the order of the script: all of them if it comes to the end of the script, and the
first ones if a fault or the ceiling ends it before. A loop that is found goes on behind its header,
takes the lines up to where the walk goes on, and ends before the first line that has text in
column 0 or with the script. -/
theorem ofScript_visits_once (script : String) (options : Options) :
    let texts := Line.texts script
    let lines := Line.ofScript script
    let walk := Walk.startingAt options.maxSteps lines 0 (.start options.color)
    (texts ≠ [] ∧ "\n".intercalate texts = script ∧ (∀ s ∈ texts, '\n' ∉ s.toList) ∧
      lines = texts.mapIdx fun i s ↦ Line.ofChars (i + 1) s.toList) ∧
    (∀ i header loop, i < lines.length → Loop.scan lines i header = .ok loop →
      i < loop.resume ∧ loop.resume ≤ lines.length ∧
      loop.body = (lines.take loop.resume).drop (i + 1) ∧
      (∀ l ∈ loop.body, l.text = "" ∨ 0 < l.indent) ∧
      (loop.resume = lines.length ∨
        ∃ l, lines[loop.resume]? = some l ∧ l.text ≠ "" ∧ l.indent = 0)) ∧
    ofScript script options = ofProgress walk.progress ∧
    (∀ v ∈ walk.visits, v.IsOf lines) ∧
    ∃ n, n ≤ lines.length ∧ walk.visits.flatMap Visit.indices = List.range n ∧
      ∀ t, walk.progress = .ok t → n = lines.length := by
  intro texts lines walk
  refine ⟨⟨Line.texts_ne_nil script, Line.intercalate_texts script,
    fun s ↦ Line.newline_notMem_of_mem_texts, Line.ofScript_eq_mapIdx script⟩, ?_, ?_, ?_, ?_⟩
  · intro i header loop hi hscan
    refine ⟨Loop.lt_resume hscan, Loop.resume_le hscan hi, Loop.body_eq hscan, ?_, ?_⟩
    · intro l hl
      obtain ⟨-, rfl⟩ := Loop.scan_eq_ok_iff.1 hscan
      exact Line.inBody_iff.1 (Line.inBody_of_mem_body hl)
    · rcases Nat.eq_or_lt_of_le (Loop.resume_le hscan hi) with heq | hlt
      · exact .inl heq
      · have hl := List.getElem?_eq_getElem hlt
        exact .inr ⟨_, hl, Line.inBody_eq_false_iff.1 (Loop.inBody_resume hscan hl)⟩
  · have hwalk := Walk.progress_startingAt options.maxSteps lines 0 (.start options.color)
    rw [List.drop_zero] at hwalk
    rw [ofScript, ofLines, ← hwalk]
  · exact fun v ↦ Walk.isOf_of_mem_visits
  · obtain ⟨n, -, hn, hvisits, hend⟩ := Walk.exists_indices_visits options.maxSteps lines
      (.start options.color) (Nat.zero_le lines.length)
    exact ⟨n, hn, by rw [List.range_eq_range']; exact hvisits, hend⟩

/-- A loop with a blank line at the end of its body, and a line behind it. -/
theorem ofScript_visits_once_behind_loop :
    let lines := Line.ofScript "fd(1)\nfor i in range(2):\n  lt(90)\n\nfd(2)"
    let loop : Loop := ⟨⟨"i", 2⟩, [⟨3, 2, "lt(90)"⟩, ⟨4, 0, ""⟩], 4⟩
    Loop.scan lines 1 ⟨"i", 2⟩ = .ok loop ∧ 1 < loop.resume ∧ loop.resume ≤ lines.length ∧
      loop.body = (lines.take loop.resume).drop 2 ∧ (∀ l ∈ loop.body, l.text = "" ∨ 0 < l.indent) ∧
      ∃ l, lines[loop.resume]? = some l ∧ l.text ≠ "" ∧ l.indent = 0 := by
  intro lines loop
  have hlines : lines = [⟨1, 0, "fd(1)"⟩, ⟨2, 0, "for i in range(2):"⟩, ⟨3, 2, "lt(90)"⟩,
      ⟨4, 0, ""⟩, ⟨5, 0, "fd(2)"⟩] := by decide +kernel
  have hbody : Line.body (lines.drop 2) = [⟨3, 2, "lt(90)"⟩, ⟨4, 0, ""⟩] := by
    rw [hlines]
    rfl
  have hscan : Loop.scan lines 1 ⟨"i", 2⟩ = .ok loop := by
    refine Loop.scan_eq_ok_iff.2 ⟨?_, ?_⟩
    · rw [hbody]
      decide +kernel
    · rw [hbody]
      rfl
  have hi : 1 < lines.length := by
    rw [hlines]
    decide
  obtain ⟨hlt, hle, hbetween, hblank, hend⟩ :=
    (ofScript_visits_once "fd(1)\nfor i in range(2):\n  lt(90)\n\nfd(2)" {}).2.1 1 ⟨"i", 2⟩ loop hi
      hscan
  refine ⟨hscan, hlt, hle, hbetween, hblank, hend.resolve_left fun h ↦ ?_⟩
  rw [show Line.ofScript _ = lines from rfl, hlines] at h
  cases h

end Run

end TurtleGraphics
