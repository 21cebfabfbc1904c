import TurtleGraphics.Proofs.Statement.Grammar
import TurtleGraphics.Run

/-!
# The event stream of a script

Written out, a script is one list of events: its loops are unrolled, what is passed over is gone,
and the first fault ends it. `Line.stream` says this by recursion on the lines, without a ceiling, a
cursor or an index. Main statements:

* `Line.stream_eq_sections`: the stream is that of the sections of the script, one after the other;
* `Line.stream_append`: a script that does not go on a loop body adds its stream to what stands
  before it.
-/

namespace TurtleGraphics

/-! ## Events up to the first fault -/

namespace Event

/-- The command that the event gives. -/
def command? : Event → Option Command
  | command c => some c
  | fault _ => none

/-- The fault that the event is. -/
def fault? : Event → Option Fault
  | command _ => none
  | fault f => some f

/-- The events up to the first fault, that one included. -/
def upToFault : List Event → List Event
  | [] => []
  | command c :: es => command c :: upToFault es
  | fault f :: _ => [fault f]

/-- The commands among the events. -/
def commands (es : List Event) : List Command := es.filterMap command?

/-- The first fault among the events. -/
def firstFault? (es : List Event) : Option Fault := es.findSome? fault?

@[simp] theorem commands_nil : commands [] = [] := rfl
@[simp] theorem commands_command (c : Command) (es : List Event) :
    commands (command c :: es) = c :: commands es := rfl
@[simp] theorem commands_fault (f : Fault) (es : List Event) :
    commands (fault f :: es) = commands es := rfl
@[simp] theorem firstFault?_nil : firstFault? [] = none := rfl
@[simp] theorem firstFault?_command (c : Command) (es : List Event) :
    firstFault? (command c :: es) = firstFault? es := rfl
@[simp] theorem firstFault?_fault (f : Fault) (es : List Event) :
    firstFault? (fault f :: es) = some f := rfl
@[simp] theorem upToFault_nil : upToFault [] = [] := rfl
@[simp] theorem upToFault_command (c : Command) (es : List Event) :
    upToFault (command c :: es) = command c :: upToFault es := rfl
@[simp] theorem upToFault_fault (f : Fault) (es : List Event) :
    upToFault (fault f :: es) = [fault f] := rfl

/-- What stands behind may be cut before it is put there. -/
theorem upToFault_append_upToFault (es fs : List Event) :
    upToFault (es ++ upToFault fs) = upToFault (es ++ fs) := by
  induction es with
  | nil =>
    induction fs with
    | nil => rfl
    | cons f fs ih =>
      cases f with
      | command c => simpa using ih
      | fault f => rfl
  | cons e es ih =>
    cases e with
    | command c => simpa using ih
    | fault f => rfl

/-- What stands in front may be cut before something is put behind it. -/
theorem upToFault_upToFault_append (es fs : List Event) :
    upToFault (upToFault es ++ fs) = upToFault (es ++ fs) := by
  induction es with
  | nil => rfl
  | cons e es ih =>
    cases e with
    | command c => simpa using ih
    | fault f => rfl

@[simp] theorem upToFault_upToFault (es : List Event) :
    upToFault (upToFault es) = upToFault es := upToFault_append_upToFault [] es

/-! Commands in front of other events are kept, and commands alone have no fault. -/

theorem upToFault_map_command_append (cs : List Command) (es : List Event) :
    upToFault (cs.map command ++ es) = cs.map command ++ upToFault es := by
  induction cs with
  | nil => rfl
  | cons c cs ih => exact congrArg (command c :: ·) ih

@[simp] theorem commands_map_command_append (cs : List Command) (es : List Event) :
    commands (cs.map command ++ es) = cs ++ commands es := by
  induction cs with
  | nil => rfl
  | cons c cs ih => exact congrArg (c :: ·) ih

@[simp] theorem firstFault?_map_command_append (cs : List Command) (es : List Event) :
    firstFault? (cs.map command ++ es) = firstFault? es := by
  induction cs with
  | nil => rfl
  | cons c cs ih => exact ih

@[simp] theorem upToFault_map_command (cs : List Command) :
    upToFault (cs.map command) = cs.map command := by
  simpa using upToFault_map_command_append cs []

@[simp] theorem commands_map_command (cs : List Command) : commands (cs.map command) = cs := by
  simpa using commands_map_command_append cs []

@[simp] theorem firstFault?_map_command (cs : List Command) :
    firstFault? (cs.map command) = none := by
  simpa using firstFault?_map_command_append cs []

end Event

/-! ## The stream of a list of lines -/

namespace Line

/-- The events of the lines, every loop written out, up to the first fault. -/
def stream : List Line → List Event
  | [] => []
  | l :: rest =>
    match l.statement with
    | .ok (.command c) => .command c :: stream rest
    | .ok (.header header) =>
      match nested? (body rest) with
      | some fault => [.fault fault]
      | none =>
        Event.upToFault
          ((List.replicate header.count ((body rest).filterMap event?)).flatten ++
            stream (afterBody rest))
    | .ok .blank | .ok .other => stream rest
    | .error fault => [.fault fault]
termination_by lines => lines.length
decreasing_by
  · exact Nat.lt_succ_self _
  · exact Nat.lt_succ_of_le (length_afterBody_le rest)
  · exact Nat.lt_succ_self _

end Line

namespace Section

/-- The events of a section, with the body of a loop as often as its header asks. -/
def events : Section → List Event
  | .line l => l.event?.toList
  | .loop _ header body =>
    match Line.nested? body with
    | some fault => [.fault fault]
    | none => (List.replicate header.count (body.filterMap Line.event?)).flatten

theorem header?_eq_some_iff {l : Line} {header : LoopHeader} :
    header? l = some header ↔ l.statement = .ok (.header header) := by
  constructor
  · intro h
    unfold header? at h
    split at h
    · rename_i header' hl
      rw [hl, Option.some.inj h]
    · simp at h
  · intro h
    simp [header?, h]

end Section

namespace Line

@[simp] theorem stream_nil : stream [] = [] := by simp [stream]

/-- The stream of a script is cut already. -/
@[simp] theorem upToFault_stream (lines : List Line) :
    Event.upToFault (stream lines) = stream lines := by
  fun_induction stream lines with
  | case1 => rfl
  | case2 l rest c hl ih => simp [ih]
  | case3 l rest header hl fault hn => simp
  | case4 l rest header hl hn ih => simp
  | case5 l rest hl ih => exact ih
  | case6 l rest hl ih => exact ih
  | case7 l rest fault hl => simp

/-- A line that is no header adds its own event. -/
theorem stream_cons_of_header?_eq_none {l : Line} (h : Section.header? l = none)
    (rest : List Line) :
    stream (l :: rest) = Event.upToFault (l.event?.toList ++ stream rest) := by
  rw [stream]
  cases hl : l.statement with
  | error fault => simp [event?, hl]
  | ok s =>
    cases s with
    | header header => simp [Section.header?, hl] at h
    | command c => simp [event?, hl]
    | blank => simp [event?, hl]
    | other => simp [event?, hl]

/-- A header adds the events of its loop. -/
theorem stream_cons_of_header?_eq_some {l : Line} {header : LoopHeader}
    (h : Section.header? l = some header) (rest : List Line) :
    stream (l :: rest) =
      Event.upToFault ((Section.loop l header (body rest)).events ++ stream (afterBody rest)) := by
  rw [stream, Section.header?_eq_some_iff.1 h, Section.events]
  cases hn : nested? (body rest) with
  | none => rfl
  | some fault => rfl

/-- The stream is that of the sections, one after the other. -/
theorem stream_eq_sections (lines : List Line) :
    stream lines = Event.upToFault ((sections lines).flatMap Section.events) := by
  fun_induction sections lines with
  | case1 => simp
  | case2 l rest h ih =>
    rw [stream_cons_of_header?_eq_none h, ih, Event.upToFault_append_upToFault]
    rfl
  | case3 l rest header h ih =>
    rw [stream_cons_of_header?_eq_some h, ih, Event.upToFault_append_upToFault]
    rfl

/-- The stream of lines that are no headers. -/
theorem stream_eq_filterMap {lines : List Line} (h : ∀ l ∈ lines, Section.header? l = none) :
    stream lines = Event.upToFault (lines.filterMap event?) := by
  induction lines with
  | nil => simp
  | cons l rest ih =>
    have hrest : ∀ x ∈ rest, Section.header? x = none := fun x hx ↦ h x (List.mem_cons_of_mem l hx)
    rw [stream_cons_of_header?_eq_none (h l List.mem_cons_self), ih hrest,
      Event.upToFault_append_upToFault, List.filterMap_cons]
    cases l.event? with
    | none => rfl
    | some e => rfl

/-- A line that opens no loop is no header. -/
theorem header?_eq_none_of_opensLoop {l : Line} (h : l.opensLoop = false) :
    Section.header? l = none := by
  cases hl : Section.header? l with
  | none => rfl
  | some header =>
    have ho : l.opensLoop = true :=
      Statement.opensLoop_of_ofTokens (Section.header?_eq_some_iff.1 hl)
    rw [h] at ho
    exact absurd ho Bool.false_ne_true

theorem body_append_afterBody (rest : List Line) : body rest ++ afterBody rest = rest :=
  List.takeWhile_append_dropWhile

/-- A header and the lines that go on its body make one loop. -/
theorem stream_loop {head : Line} {header : LoopHeader} {block rest : List Line}
    (hhead : Section.header? head = some header) (hblock : ∀ l ∈ block, l.inBody)
    (hloops : ∀ l ∈ block, l.opensLoop = false) (hrest : body rest = []) :
    stream (head :: block ++ rest) =
      Event.upToFault
        ((List.replicate header.count (block.filterMap event?)).flatten ++ stream rest) := by
  have hbody : body (block ++ rest) = block := by
    rw [body, List.takeWhile_append_of_pos hblock, ← body, hrest, List.append_nil]
  have hafter : afterBody (block ++ rest) = rest := by
    have happend := body_append_afterBody rest
    rw [hrest, List.nil_append] at happend
    rw [afterBody, List.dropWhile_append_of_pos hblock, ← afterBody, happend]
  have hnested : nested? block = none := by
    rw [nested?, List.find?_eq_none.2 fun l hl ↦ by simp [hloops l hl]]
    rfl
  rw [List.cons_append, stream_cons_of_header?_eq_some hhead, hbody, hafter, Section.events,
    hnested]

/-! ## Scripts one after the other

Lines without text stand in a loop body wherever they are, so a script that begins with some of
them gives them away to a loop at the end of what stands before it. Nothing comes of that: such
lines make nothing happen. -/

theorem body_append (xs ys : List Line) :
    body (xs ++ ys) = if (afterBody xs).isEmpty then xs ++ body ys else body xs := by
  induction xs with
  | nil => rfl
  | cons x xs ih =>
    simp only [body, afterBody, List.cons_append, List.takeWhile_cons, List.dropWhile_cons] at ih ⊢
    cases x.inBody with
    | true =>
      simp only [if_true, ih]
      exact apply_ite (List.cons x) _ _ _
    | false => rfl

theorem afterBody_append (xs ys : List Line) :
    afterBody (xs ++ ys) =
      if (afterBody xs).isEmpty then afterBody ys else afterBody xs ++ ys :=
  List.dropWhile_append

theorem body_eq_self_of_afterBody_eq_nil {xs : List Line} (h : afterBody xs = []) :
    body xs = xs := by
  have hx := body_append_afterBody xs
  rwa [h, List.append_nil] at hx

/-- A line without text says nothing. -/
theorem statement_eq_blank {l : Line} (h : l.text = "") : l.statement = .ok .blank := by
  rw [statement, h, Statement.ofString, Tokens.ofString, Tokens.ofChars]
  rfl

theorem header?_eq_none_of_text {l : Line} (h : l.text = "") : Section.header? l = none := by
  rw [Section.header?, statement_eq_blank h]

theorem event?_eq_none_of_text {l : Line} (h : l.text = "") : l.event? = none := by
  rw [event?, statement_eq_blank h]

theorem opensLoop_eq_false_of_text {l : Line} (h : l.text = "") : l.opensLoop = false := by
  rw [opensLoop, h, Tokens.ofString, Tokens.ofChars]
  rfl

/-- Lines without text at the end of a body change nothing about the loop. -/
theorem events_loop_append {l : Line} {header : LoopHeader} {xs ys : List Line}
    (h : ∀ y ∈ ys, y.text = "") :
    (Section.loop l header (xs ++ ys)).events = (Section.loop l header xs).events := by
  have hf : ys.find? opensLoop = none :=
    List.find?_eq_none.2 fun y hy ↦ by simp [opensLoop_eq_false_of_text (h y hy)]
  have he : ys.filterMap event? = [] :=
    List.filterMap_eq_nil_iff.2 fun y hy ↦ event?_eq_none_of_text (h y hy)
  simp only [Section.events, nested?, List.find?_append, hf, Option.or_none,
    List.filterMap_append, he, List.append_nil]

/-- Whether a loop that stands before the lines ends there: the first of them that has text is not
indented. -/
def Detached (lines : List Line) : Prop := ∀ l ∈ body lines, l.text = ""

theorem stream_afterBody {lines : List Line} (h : Detached lines) :
    stream (afterBody lines) = stream lines := by
  induction lines with
  | nil => rfl
  | cons l rest ih =>
    unfold Detached body at h
    rw [afterBody, List.dropWhile_cons]
    split
    · rename_i hl
      rw [List.takeWhile_cons_of_pos hl] at h
      have ht : l.text = "" := h l List.mem_cons_self
      have hrest : Detached rest := fun x hx ↦ h x (List.mem_cons_of_mem l hx)
      rw [stream_cons_of_header?_eq_none (header?_eq_none_of_text ht), event?_eq_none_of_text ht]
      simpa [afterBody] using ih hrest
    · rfl

/-- The stream of two scripts, one after the other, if the second does not go on a loop of the
first. -/
theorem stream_append (script : List Line) {rest : List Line} (h : Detached rest) :
    stream (script ++ rest) = Event.upToFault (stream script ++ stream rest) := by
  fun_induction sections script with
  | case1 => simp
  | case2 l script hl ih =>
    rw [List.cons_append, stream_cons_of_header?_eq_none hl, ih, stream_cons_of_header?_eq_none hl,
      Event.upToFault_append_upToFault, Event.upToFault_upToFault_append, List.append_assoc]
  | case3 l script header hl ih =>
    rw [List.cons_append, stream_cons_of_header?_eq_some hl, stream_cons_of_header?_eq_some hl,
      body_append, afterBody_append]
    cases ha : afterBody script with
    | nil =>
      -- The loop reaches the end of the first script and takes lines without text from the second.
      simp only [List.isEmpty_nil, if_true]
      rw [events_loop_append h, stream_afterBody h, body_eq_self_of_afterBody_eq_nil ha, stream_nil,
        List.append_nil, Event.upToFault_upToFault_append]
    | cons l' script' =>
      simp only [List.isEmpty_cons, Bool.false_eq_true, if_false]
      rw [ha] at ih
      rw [ih, Event.upToFault_append_upToFault, Event.upToFault_upToFault_append,
        List.append_assoc]

end Line

end TurtleGraphics
