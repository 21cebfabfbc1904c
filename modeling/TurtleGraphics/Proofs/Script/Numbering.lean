import TurtleGraphics.Proofs.Script.Stream

/-!
# Line numbers

A line's number is for the message of its fault. It decides neither what the line says nor whether
the line belongs to a loop, so numbering the lines of a script anew changes the faults of its stream
and nothing else (`Line.stream_map_mapNumber`). The lines of a text that was put together from lines
are those lines, up to their numbers (`Line.map_renumber_ofScript`), and of two texts with a newline
between them the second has its lines counted on from the first (`Line.ofScript_append`).
-/

namespace TurtleGraphics

namespace Fault

/-- The same fault, its line counted in another way. -/
def mapLine (g : Nat → Nat) : Fault → Fault
  | argument n keyword detail => argument (g n) keyword detail
  | header n detail => header (g n) detail
  | nestedLoop n => nestedLoop (g n)

/-- The same fault on another line. -/
def atLine (n : Nat) : Fault → Fault
  | argument _ keyword detail => argument n keyword detail
  | header _ detail => header n detail
  | nestedLoop _ => nestedLoop n

theorem mapLine_const (n : Nat) : mapLine (fun _ ↦ n) = atLine n := by
  funext f
  cases f with
  | argument => rfl
  | header => rfl
  | nestedLoop => rfl

@[simp] theorem line_mapLine (g : Nat → Nat) (f : Fault) : (f.mapLine g).line = g f.line := by
  cases f with
  | argument => rfl
  | header => rfl
  | nestedLoop => rfl

end Fault

namespace Event

/-- The same event, its line counted in another way. -/
def mapLine (g : Nat → Nat) : Event → Event
  | command c => command c
  | fault f => fault (f.mapLine g)

/-- The same event on another line. -/
def atLine (n : Nat) : Event → Event
  | command c => command c
  | fault f => fault (f.atLine n)

@[simp] theorem mapLine_command (g : Nat → Nat) (c : Command) :
    (command c).mapLine g = command c := rfl
@[simp] theorem mapLine_fault (g : Nat → Nat) (f : Fault) :
    (fault f).mapLine g = fault (f.mapLine g) := rfl

theorem mapLine_const (n : Nat) : mapLine (fun _ ↦ n) = atLine n := by
  funext e
  cases e with
  | command c => rfl
  | fault f => rw [mapLine_fault, Fault.mapLine_const]; rfl

theorem map_mapLine_upToFault (g : Nat → Nat) (es : List Event) :
    (upToFault es).map (mapLine g) = upToFault (es.map (mapLine g)) := by
  induction es with
  | nil => rfl
  | cons e es ih =>
    cases e with
    | command c => simpa using ih
    | fault f => rfl

theorem commands_map_mapLine (g : Nat → Nat) (es : List Event) :
    commands (es.map (mapLine g)) = commands es := by
  induction es with
  | nil => rfl
  | cons e es ih =>
    cases e with
    | command c => simpa using ih
    | fault f => simpa using ih

theorem firstFault?_map_mapLine (g : Nat → Nat) (es : List Event) :
    firstFault? (es.map (mapLine g)) = (firstFault? es).map (Fault.mapLine g) := by
  induction es with
  | nil => rfl
  | cons e es ih =>
    cases e with
    | command c => simpa using ih
    | fault f => rfl

theorem commands_map_atLine (n : Nat) (es : List Event) :
    commands (es.map (atLine n)) = commands es := by
  rw [← mapLine_const, commands_map_mapLine]

theorem firstFault?_map_atLine (n : Nat) (es : List Event) :
    firstFault? (es.map (atLine n)) = (firstFault? es).map (Fault.atLine n) := by
  rw [← mapLine_const, firstFault?_map_mapLine, Fault.mapLine_const]

end Event

/-! ## What a line says, on any line -/

namespace Statement

theorem mapError_mapLine_ofWord (g : Nat → Nat) (k : Nat) (word : String) (rest : Tokens) :
    (ofWord k word rest).mapError (Fault.mapLine g) = ofWord (g k) word rest := by
  unfold ofWord
  split
  · rfl
  · split
    · rfl
    · rfl

theorem mapError_mapLine_ofTokens (g : Nat → Nat) (k : Nat) (ts : Tokens) :
    (ofTokens k ts).mapError (Fault.mapLine g) = ofTokens (g k) ts := by
  unfold ofTokens
  split
  · rfl
  · split
    · split
      · rfl
      · rfl
    · split
      · exact mapError_mapLine_ofWord g k _ _
      · rfl
      · exact mapError_mapLine_ofWord g k _ _
  · rfl

end Statement

namespace Line

/-- The same line, counted in another way. -/
def mapNumber (g : Nat → Nat) (l : Line) : Line := { l with number := g l.number }

/-- The same line with another number. -/
def renumber (n : Nat) (l : Line) : Line := { l with number := n }

theorem mapNumber_const (n : Nat) : mapNumber (fun _ ↦ n) = renumber n := rfl

@[simp] theorem inBody_mapNumber (g : Nat → Nat) (l : Line) :
    (l.mapNumber g).inBody = l.inBody := rfl
@[simp] theorem opensLoop_mapNumber (g : Nat → Nat) (l : Line) :
    (l.mapNumber g).opensLoop = l.opensLoop := rfl

theorem statement_mapNumber (g : Nat → Nat) (l : Line) :
    (l.mapNumber g).statement = l.statement.mapError (Fault.mapLine g) :=
  (Statement.mapError_mapLine_ofTokens g l.number _).symm

theorem header?_mapNumber (g : Nat → Nat) (l : Line) :
    Section.header? (l.mapNumber g) = Section.header? l := by
  rw [Section.header?, Section.header?, statement_mapNumber]
  cases l.statement with
  | error fault => rfl
  | ok s => rfl

theorem event?_mapNumber (g : Nat → Nat) (l : Line) :
    (l.mapNumber g).event? = l.event?.map (Event.mapLine g) := by
  rw [event?, event?, statement_mapNumber]
  cases l.statement with
  | error fault => rfl
  | ok s => cases s <;> rfl

theorem body_map_mapNumber (g : Nat → Nat) (lines : List Line) :
    body (lines.map (mapNumber g)) = (body lines).map (mapNumber g) := List.takeWhile_map

theorem afterBody_map_mapNumber (g : Nat → Nat) (lines : List Line) :
    afterBody (lines.map (mapNumber g)) = (afterBody lines).map (mapNumber g) :=
  List.dropWhile_map

theorem nested?_map_mapNumber (g : Nat → Nat) (body : List Line) :
    nested? (body.map (mapNumber g)) = (nested? body).map (Fault.mapLine g) := by
  have hp : opensLoop ∘ mapNumber g = opensLoop := rfl
  rw [nested?, nested?, List.find?_map, hp]
  cases body.find? opensLoop with
  | none => rfl
  | some l => rfl

theorem filterMap_event?_map_mapNumber (g : Nat → Nat) (lines : List Line) :
    (lines.map (mapNumber g)).filterMap event? =
      (lines.filterMap event?).map (Event.mapLine g) := by
  rw [List.filterMap_map, List.map_filterMap]
  exact congrArg (List.filterMap · lines) (funext (event?_mapNumber g))

theorem events_loop_mapNumber (g : Nat → Nat) (l : Line) (header : LoopHeader)
    (body : List Line) :
    (Section.loop (l.mapNumber g) header (body.map (mapNumber g))).events =
      (Section.loop l header body).events.map (Event.mapLine g) := by
  simp only [Section.events, nested?_map_mapNumber, filterMap_event?_map_mapNumber]
  cases nested? body with
  | some fault => rfl
  | none => simp [List.map_flatten]

/-- Counting the lines in another way changes the faults of the stream and nothing else. -/
theorem stream_map_mapNumber (g : Nat → Nat) (lines : List Line) :
    stream (lines.map (mapNumber g)) = (stream lines).map (Event.mapLine g) := by
  fun_induction sections lines with
  | case1 => simp
  | case2 l rest h ih =>
    have hn : Section.header? (l.mapNumber g) = none := by rw [header?_mapNumber, h]
    rw [List.map_cons, stream_cons_of_header?_eq_none hn, stream_cons_of_header?_eq_none h, ih,
      event?_mapNumber, Event.map_mapLine_upToFault, List.map_append]
    cases l.event? with
    | none => rfl
    | some e => rfl
  | case3 l rest header h ih =>
    have hn : Section.header? (l.mapNumber g) = some header := by rw [header?_mapNumber, h]
    rw [List.map_cons, stream_cons_of_header?_eq_some hn, stream_cons_of_header?_eq_some h,
      body_map_mapNumber, afterBody_map_mapNumber, ih, events_loop_mapNumber,
      Event.map_mapLine_upToFault, List.map_append]

theorem stream_map_renumber (n : Nat) (lines : List Line) :
    stream (lines.map (renumber n)) = (stream lines).map (Event.atLine n) := by
  rw [← mapNumber_const, stream_map_mapNumber, Event.mapLine_const]

/-- Lines end a loop before them however they are counted. -/
theorem detached_map_mapNumber {lines : List Line} (g : Nat → Nat) (h : Detached lines) :
    Detached (lines.map (mapNumber g)) := by
  intro l hl
  rw [body_map_mapNumber] at hl
  obtain ⟨l', hl', rfl⟩ := List.mem_map.1 hl
  exact h l' hl'

/-! ## Texts put together from lines -/

/-- A line by itself. It has the number 0, which is that of no line of a script. -/
def ofText (s : String) : Line := ofChars 0 s.toList

theorem ofPieces_append (first : Nat) (ps qs : List (List Char)) :
    ofPieces first (ps ++ qs) = ofPieces first ps ++ ofPieces (first + ps.length) qs := by
  induction ps generalizing first with
  | nil => rfl
  | cons p ps ih =>
    rw [List.cons_append, ofPieces, ih, ofPieces, List.length_cons, Nat.add_comm ps.length,
      Nat.add_assoc, List.cons_append]

theorem ofPieces_add (first k : Nat) (ps : List (List Char)) :
    ofPieces (first + k) ps = (ofPieces first ps).map (mapNumber (· + k)) := by
  induction ps generalizing first with
  | nil => rfl
  | cons p ps ih =>
    rw [ofPieces, Nat.add_right_comm, ih, ofPieces, List.map_cons]
    rfl

/-- Of two texts with a newline between them, the lines of the second are counted on from those of
the first. -/
theorem ofScript_append (s t : String) :
    ofScript (s ++ "\n" ++ t) =
      ofScript s ++ (ofScript t).map (mapNumber (· + (ofScript s).length)) := by
  have hsplit : (s ++ "\n" ++ t).toList.splitOn '\n' =
      s.toList.splitOn '\n' ++ t.toList.splitOn '\n' := by
    rw [String.toList_append, String.toList_append, List.append_assoc]
    exact List.splitOn_append_cons_self _ _
  rw [ofScript, hsplit, ofPieces_append, ← length_ofPieces 1, ofPieces_add]
  rfl

theorem map_renumber_ofPieces (first : Nat) (pieces : List (List Char)) :
    (ofPieces first pieces).map (renumber 0) = pieces.map (ofChars 0) := by
  induction pieces generalizing first with
  | nil => rfl
  | cons cs pieces ih => rw [ofPieces, List.map_cons, ih]; rfl

/-- The lines of a text are those that it was put together from. -/
theorem ofScript_intercalate {texts : List String} (hne : texts ≠ [])
    (h : ∀ s ∈ texts, '\n' ∉ s.toList) :
    ofScript ("\n".intercalate texts) = ofPieces 1 (texts.map String.toList) := by
  have hsplit : ("\n".intercalate texts).toList.splitOn '\n' = texts.map String.toList := by
    rw [String.toList_intercalate]
    refine List.splitOn_intercalate '\n' ?_ (by simpa using hne)
    simpa using h
  rw [ofScript, hsplit]

theorem map_renumber_ofScript {texts : List String} (hne : texts ≠ [])
    (h : ∀ s ∈ texts, '\n' ∉ s.toList) :
    (ofScript ("\n".intercalate texts)).map (renumber 0) = texts.map ofText := by
  rw [ofScript_intercalate hne h, map_renumber_ofPieces, List.map_map]
  rfl

/-- The lines of a script as they are written. -/
def texts (script : String) : List String := (script.toList.splitOn '\n').map String.ofList

theorem map_toList_texts (script : String) :
    (texts script).map String.toList = script.toList.splitOn '\n' := by
  simp [texts]

theorem ofScript_eq_ofPieces (script : String) :
    ofScript script = ofPieces 1 ((texts script).map String.toList) := by
  rw [map_toList_texts, ofScript]

theorem texts_ne_nil (script : String) : texts script ≠ [] := by
  simp [texts]

/-- A script is its lines with newlines between them. -/
theorem intercalate_texts (script : String) : "\n".intercalate (texts script) = script := by
  apply String.toList_injective
  rw [String.toList_intercalate, map_toList_texts]
  exact List.intercalate_splitOn '\n'

theorem notMem_of_mem_splitOn {a : Char} {cs piece : List Char} (h : piece ∈ cs.splitOn a) :
    a ∉ piece := by
  induction cs generalizing piece with
  | nil =>
    obtain rfl : piece = [] := by simpa using h
    exact List.not_mem_nil
  | cons c cs ih =>
    rw [List.splitOn_cons_eq_if_modifyHead] at h
    split at h
    · rcases List.mem_cons.1 h with rfl | h
      · exact List.not_mem_nil
      · exact ih h
    · rename_i hc
      cases hcs : cs.splitOn a with
      | nil => simp [hcs] at h
      | cons first rest =>
        rw [hcs, List.modifyHead_cons] at h
        rcases List.mem_cons.1 h with rfl | h
        · have hfirst : a ∉ first := ih (hcs ▸ List.mem_cons_self)
          rw [List.mem_cons, not_or]
          exact ⟨fun ha ↦ hc (by simp [ha]), hfirst⟩
        · exact ih (hcs ▸ List.mem_cons_of_mem _ h)

theorem newline_notMem_of_mem_texts {script s : String} (h : s ∈ texts script) :
    '\n' ∉ s.toList := by
  obtain ⟨piece, hpiece, rfl⟩ := List.mem_map.1 h
  rw [String.toList_ofList]
  exact notMem_of_mem_splitOn hpiece

theorem newline_notMem_of_forall₂ {R : String → String → Prop} {lines copy : List String}
    (hR : ∀ s t, R s t → '\n' ∉ s.toList → '\n' ∉ t.toList) (h : List.Forall₂ R lines copy)
    (hlines : ∀ s ∈ lines, '\n' ∉ s.toList) : ∀ t ∈ copy, '\n' ∉ t.toList := by
  induction h with
  | nil => simp
  | cons hs _ ih =>
    rw [List.forall_mem_cons] at hlines ⊢
    exact ⟨hR _ _ hs hlines.1, ih hlines.2⟩

theorem map_renumber_ofScript_texts (script : String) :
    (ofScript script).map (renumber 0) = (texts script).map ofText := by
  rw [ofScript, map_renumber_ofPieces, ← map_toList_texts, List.map_map]
  rfl

/-- The first lines of a script as they are written. -/
theorem map_ofText_take_texts {script : String} {before after : List Line}
    (h : ofScript script = before ++ after) :
    ((texts script).take before.length).map ofText = before.map (renumber 0) := by
  rw [List.map_take, ← map_renumber_ofScript_texts, ← List.map_take, h, List.take_left]

/-- The number of a line is one more than the number of lines before it. -/
theorem number_of_ofScript_eq {script : String} {before after : List Line} {l : Line}
    (h : ofScript script = before ++ l :: after) : l.number = before.length + 1 := by
  have hl : (ofScript script)[before.length]? = some l := by simp [h]
  rw [number_ofPieces hl, Nat.add_comm]

/-- The stream of a text is that of the lines it was put together from, up to the numbers. -/
theorem stream_intercalate {texts : List String} (h : ∀ s ∈ texts, '\n' ∉ s.toList) :
    (stream (ofScript ("\n".intercalate texts))).map (Event.atLine 0) =
      stream (texts.map ofText) := by
  rw [← stream_map_renumber]
  by_cases hne : texts = []
  · subst hne
    -- The empty text has one line, which is without text.
    have hblank : (ofText "").text = "" := rfl
    change stream [ofText ""] = stream []
    rw [stream_cons_of_header?_eq_none (header?_eq_none_of_text hblank),
      event?_eq_none_of_text hblank]
    simp
  · rw [map_renumber_ofScript hne h]

end Line

end TurtleGraphics
