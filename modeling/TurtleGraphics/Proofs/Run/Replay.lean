import TurtleGraphics.Proofs.Script.Numbering

/-!
# Runs as replayed commands

A run does what its event stream says, command by command, until the stream or the ceiling ends it.
What it leaves behind is a matter of the obeyed commands alone: a step for each, and the two sums
over their effects. Main statements:

* `Trail.performAll_sections`: walking the sections of a script is following its stream;
* `Trail.followAll_eq`: following a stream obeys as many of its commands as the ceiling allows;
* `Run.ofScript_eq_ofCommands`: the run of a script is that of the first commands of its stream.
-/

namespace TurtleGraphics

/-! ## What a list of commands leaves behind -/

/-- The cursor after the command. -/
def Cursor.after (cursor : Cursor) (c : Command) : Cursor := cursor.apply (c.effect cursor)

namespace Command

/-- The cursors that the commands lead through from a fresh one, that one included. -/
def trace (color : String) (cs : List Command) : List Cursor :=
  cs.scanl Cursor.after (.fresh color)

/-- The effects of the commands, each at the cursor that the ones before it lead to. -/
def effects : Cursor → List Command → List Effect
  | _, [] => []
  | cursor, c :: cs => c.effect cursor :: effects (cursor.after c) cs

end Command

/-- The magnitudes of those effects that count for the metric, added up in order. -/
def Effect.total (metric : Metric) (effects : List Effect) : Float :=
  ((effects.filter (·.metric = some metric)).map (·.magnitude)).foldl (· + ·) 0

/-- The run that obeys the given commands and then ends. -/
def Run.ofCommands (color : String) (cs : List Command) (fault : Option Fault) : Run :=
  { steps := (Command.trace color cs).mapIdx Step.mk
    fault
    pathLength := Effect.total .pathLength (Command.effects (.fresh color) cs)
    totalTurns := Effect.total .totalTurns (Command.effects (.fresh color) cs) }

namespace Trail

/-- The trail with more commands. -/
def recordAll (t : Trail) (cs : List Command) : Trail := cs.foldl record t

@[simp] theorem recordAll_nil (t : Trail) : t.recordAll [] = t := rfl
@[simp] theorem recordAll_cons (t : Trail) (c : Command) (cs : List Command) :
    t.recordAll (c :: cs) = (t.record c).recordAll cs := rfl
@[simp] theorem cursor_record (t : Trail) (c : Command) :
    (t.record c).cursor = t.cursor.after c := rfl
@[simp] theorem steps_record (t : Trail) (c : Command) :
    (t.record c).steps.toList = t.steps.toList ++ [⟨t.steps.size, t.cursor.after c⟩] := by
  simp [record, Cursor.after]
@[simp] theorem size_record (t : Trail) (c : Command) :
    (t.record c).steps.size = t.steps.size + 1 := by simp [record]

/-- Recording adds a step for each command, numbered on from those there are. -/
theorem steps_recordAll (t : Trail) (cs : List Command) :
    (t.recordAll cs).steps.toList = t.steps.toList ++
      (cs.scanl Cursor.after t.cursor).tail.mapIdx fun i cursor ↦ ⟨t.steps.size + i, cursor⟩ := by
  induction cs generalizing t with
  | nil => simp
  | cons c cs ih =>
    rw [recordAll_cons, ih]
    cases cs with
    | nil => simp
    | cons d ds => simp [List.mapIdx_cons, Nat.add_assoc, Nat.add_comm 1]

/-- Measuring one effect after the other adds up the magnitudes that count. -/
theorem foldl_measure (metric : Metric) (effects : List Effect) (sum : Float) :
    effects.foldl (fun sum effect ↦ measure metric effect sum) sum =
      ((effects.filter (·.metric = some metric)).map (·.magnitude)).foldl (· + ·) sum := by
  induction effects generalizing sum with
  | nil => rfl
  | cons e es ih =>
    rw [List.foldl_cons, ih, List.filter_cons, measure]
    by_cases he : e.metric = some metric
    · simp [he]
    · simp [he]

/-- The sum that is kept for the metric. -/
def sum (metric : Metric) (t : Trail) : Float :=
  match metric with
  | .pathLength => t.pathLength
  | .totalTurns => t.totalTurns

theorem sum_record (metric : Metric) (t : Trail) (c : Command) :
    (t.record c).sum metric = measure metric (c.effect t.cursor) (t.sum metric) := by
  cases metric <;> rfl

theorem sum_recordAll (metric : Metric) (t : Trail) (cs : List Command) :
    (t.recordAll cs).sum metric = (Command.effects t.cursor cs).foldl
      (fun sum effect ↦ measure metric effect sum) (t.sum metric) := by
  induction cs generalizing t with
  | nil => rfl
  | cons c cs ih => rw [recordAll_cons, ih, sum_record]; rfl

/-- A run that starts afresh and obeys the commands. -/
theorem ofTrail_recordAll (color : String) (cs : List Command) (fault : Option Fault) :
    Run.ofTrail ((start color).recordAll cs) fault = Run.ofCommands color cs fault := by
  have hsteps : ((start color).recordAll cs).steps.toList =
      (Command.trace color cs).mapIdx Step.mk := by
    rw [steps_recordAll, Command.trace]
    cases cs with
    | nil => rfl
    | cons c cs => simp [start, List.mapIdx_cons, Nat.add_comm 1]
  have hsum (metric : Metric) : ((start color).recordAll cs).sum metric =
      Effect.total metric (Command.effects (.fresh color) cs) := by
    rw [sum_recordAll, foldl_measure, Effect.total]
    cases metric <;> rfl
  rw [Run.ofTrail, Run.ofCommands, hsteps, ← hsum, ← hsum]
  rfl

/-! ## One command under the ceiling -/

/-- Whether a run with this trail can be on its way: the first step is recorded, and there was room
under the ceiling for the others. -/
def Open (maxSteps : Nat) (t : Trail) : Prop := 0 < t.steps.size ∧ t.steps.size ≤ max maxSteps 1

theorem open_start (maxSteps : Nat) (color : String) : (start color).Open maxSteps :=
  ⟨Nat.one_pos, Nat.le_max_right maxSteps 1⟩

/-- The run that has recorded `t` and ended for the given reason, or goes on without one. -/
def halted (t : Trail) : Option Halt → Progress
  | none => .ok t
  | some halt => .error (t, halt)

theorem obey_of_size_lt {maxSteps : Nat} {t : Trail} (h : t.steps.size < maxSteps) (c : Command) :
    t.obey maxSteps c = .ok (t.record c) := by
  rw [obey, if_neg (Nat.not_lt.2 (Nat.le_of_lt h))]
  exact if_neg (by rw [size_record]; omega)

theorem obey_of_size_eq {maxSteps : Nat} {t : Trail} (h : t.steps.size = maxSteps) (c : Command) :
    t.obey maxSteps c = .error (t.record c, .ceiling) := by
  rw [obey, if_neg (Nat.not_lt.2 (Nat.le_of_eq h))]
  exact if_pos (by rw [size_record]; omega)

theorem obey_of_lt_size {maxSteps : Nat} {t : Trail} (h : maxSteps < t.steps.size) (c : Command) :
    t.obey maxSteps c = .error (t, .ceiling) := if_pos h

theorem Open.record {maxSteps : Nat} {t : Trail} (h : t.steps.size < maxSteps) (c : Command) :
    (t.record c).Open maxSteps := by
  constructor
  · simp
  · rw [size_record]; omega

/-! ## Following a stream -/

@[simp] theorem followAll_nil (maxSteps : Nat) (t : Trail) : t.followAll maxSteps [] = .ok t := rfl

theorem followAll_cons (maxSteps : Nat) (e : Event) (es : List Event) (t : Trail) :
    t.followAll maxSteps (e :: es) = t.follow maxSteps e >>= followAll maxSteps es := rfl

theorem followAll_append (maxSteps : Nat) (es fs : List Event) (t : Trail) :
    t.followAll maxSteps (es ++ fs) = t.followAll maxSteps es >>= followAll maxSteps fs :=
  List.foldlM_append

/-- Nothing after a fault is followed. -/
theorem followAll_upToFault (maxSteps : Nat) (es : List Event) (t : Trail) :
    t.followAll maxSteps (Event.upToFault es) = t.followAll maxSteps es := by
  induction es generalizing t with
  | nil => rfl
  | cons e es ih =>
    cases e with
    | command c =>
      rw [Event.upToFault_command, followAll_cons, followAll_cons]
      exact bind_congr ih
    | fault f => rfl

/-- How many commands may still be obeyed. -/
def room (maxSteps : Nat) (t : Trail) : Nat := maxSteps + 1 - t.steps.size

/-- Why a run on an open trail does not outlast the events: the fault, if the commands before it all
find room, and the ceiling if they do not. -/
def haltOn (maxSteps : Nat) (t : Trail) (es : List Event) : Option Halt :=
  if (Event.commands (Event.upToFault es)).length + t.steps.size ≤ max maxSteps 1 then
    (Event.firstFault? es).map .fault
  else some .ceiling

theorem haltOn_command {maxSteps : Nat} (t : Trail) (c : Command) (es : List Event) :
    t.haltOn maxSteps (.command c :: es) = (t.record c).haltOn maxSteps es := by
  simp only [haltOn, Event.upToFault_command, Event.commands_command, Event.firstFault?_command,
    List.length_cons, size_record, Nat.add_assoc, Nat.add_comm 1]

theorem haltOn_command_of_le_size {maxSteps : Nat} {t : Trail} (h : t.Open maxSteps)
    (hsize : maxSteps ≤ t.steps.size) (c : Command) (es : List Event) :
    t.haltOn maxSteps (.command c :: es) = some .ceiling := by
  obtain ⟨hpos, hle⟩ := h
  refine if_neg ?_
  rw [Event.upToFault_command, Event.commands_command, List.length_cons]
  omega

/-- Following events on an open trail obeys the commands before the first fault as long as there is
room for them. -/
theorem followAll_eq {maxSteps : Nat} (es : List Event) {t : Trail} (h : t.Open maxSteps) :
    t.followAll maxSteps es =
      (t.recordAll ((Event.commands (Event.upToFault es)).take (t.room maxSteps))).halted
        (t.haltOn maxSteps es) := by
  induction es generalizing t with
  | nil => simp [haltOn, h.2, halted]
  | cons e es ih =>
    cases e with
    | fault f =>
      have hhalt : t.haltOn maxSteps (.fault f :: es) = some (.fault f) := by
        simp [haltOn, h.2]
      rw [hhalt, Event.upToFault_fault, Event.commands_fault, Event.commands_nil, List.take_nil]
      rfl
    | command c =>
      rw [followAll_cons, follow, Event.upToFault_command, Event.commands_command]
      -- There is room for more commands, for this one only, or for none.
      rcases Nat.lt_trichotomy t.steps.size maxSteps with hlt | heq | hgt
      · have hroom : t.room maxSteps = (t.record c).room maxSteps + 1 := by
          simp only [room, size_record]; omega
        rw [hroom, List.take_succ_cons, recordAll_cons, haltOn_command,
          obey_of_size_lt hlt, ← ih (Open.record hlt c)]
        rfl
      · have hroom : t.room maxSteps = 1 := by simp only [room]; omega
        rw [hroom, haltOn_command_of_le_size h (Nat.le_of_eq heq.symm), obey_of_size_eq heq]
        rfl
      · have hroom : t.room maxSteps = 0 := by simp only [room]; omega
        rw [hroom, haltOn_command_of_le_size h (Nat.le_of_lt hgt), obey_of_lt_size hgt]
        rfl

/-! ## Walking the sections -/

theorem repeatAll_eq (maxSteps : Nat) (es : List Event) (count : Nat) (t : Trail) :
    t.repeatAll maxSteps es count = t.followAll maxSteps (List.replicate count es).flatten := by
  induction count generalizing t with
  | zero => rfl
  | succ count ih =>
    rw [List.replicate_succ, List.flatten_cons, followAll_append, repeatAll]
    exact bind_congr ih

/-- Going on with a section is following its events. -/
theorem perform_eq (maxSteps : Nat) (t : Trail) (s : Section) :
    t.perform maxSteps s = t.followAll maxSteps s.events := by
  cases s with
  | line l => rfl
  | loop l header body =>
    rw [perform, Section.events]
    cases Line.nested? body with
    | some fault => rfl
    | none =>
      -- A body without events is not repeated, which makes no difference.
      cases hes : body.filterMap Line.event? with
      | nil =>
        have hnil : (List.replicate header.count ([] : List Event)).flatten = [] := by simp
        rw [hnil]
        rfl
      | cons e es => exact repeatAll_eq maxSteps (e :: es) header.count t

theorem performAll_eq (maxSteps : Nat) (ss : List Section) (t : Trail) :
    t.performAll maxSteps ss = t.followAll maxSteps (ss.flatMap Section.events) := by
  induction ss generalizing t with
  | nil => rfl
  | cons s ss ih =>
    rw [List.flatMap_cons, followAll_append, ← perform_eq]
    exact bind_congr ih

/-- Walking the sections of a script is following its stream. -/
theorem performAll_sections (maxSteps : Nat) (lines : List Line) (t : Trail) :
    t.performAll maxSteps (sections lines) = t.followAll maxSteps (Line.stream lines) := by
  rw [performAll_eq, Line.stream_eq_sections, followAll_upToFault]

end Trail

/-! ## The run of a script -/

/-- The commands of the script, every loop written out, up to its first fault. -/
def Command.ofScript (script : String) : List Command :=
  Event.commands (Line.stream (Line.ofScript script))

namespace Run

/-- The run that follows the events from a fresh cursor. -/
def ofEvents (options : Options) (es : List Event) : Run :=
  .ofProgress ((Trail.start options.color).followAll options.maxSteps es)

theorem ofLines_eq_ofEvents (options : Options) (lines : List Line) :
    ofLines options lines = ofEvents options (Line.stream lines) := by
  rw [ofLines, Trail.performAll_sections, ofEvents]

/-- Following events is obeying the commands before the first fault, as many as the ceiling allows.
The fault is met if they all find room; the ceilings 0 and 1 hide it behind the same commands. -/
theorem ofEvents_eq_ofCommands (options : Options) (es : List Event) :
    ofEvents options es =
      ofCommands options.color
        ((Event.commands (Event.upToFault es)).take options.maxSteps)
        (if (Event.commands (Event.upToFault es)).length < max options.maxSteps 1 then
          Event.firstFault? es else none) := by
  have hroom : (Trail.start options.color).room options.maxSteps = options.maxSteps := rfl
  have hhalt : (Trail.start options.color).haltOn options.maxSteps es =
      if (Event.commands (Event.upToFault es)).length < max options.maxSteps 1 then
        (Event.firstFault? es).map .fault else some .ceiling := rfl
  rw [ofEvents, Trail.followAll_eq es (Trail.open_start options.maxSteps options.color), hroom,
    hhalt, ← Trail.ofTrail_recordAll]
  split
  · cases Event.firstFault? es with
    | none => rfl
    | some f => rfl
  · rfl

theorem ofScript_eq_ofStream (script : String) (options : Options) :
    ofScript script options =
      ofCommands options.color ((Command.ofScript script).take options.maxSteps)
        (if (Command.ofScript script).length < max options.maxSteps 1 then
          Event.firstFault? (Line.stream (Line.ofScript script)) else none) := by
  rw [ofScript, ofLines_eq_ofEvents, ofEvents_eq_ofCommands, Line.upToFault_stream]
  rfl

/-- The run of a text that was put together from lines which give commands only. -/
theorem ofScript_intercalate {lines : List String} {cs : List Command}
    (hlines : ∀ s ∈ lines, '\n' ∉ s.toList)
    (h : Line.stream (lines.map Line.ofText) = cs.map .command) (options : Options) :
    ofScript ("\n".intercalate lines) options =
      ofCommands options.color (cs.take options.maxSteps) none := by
  have hstream := Line.stream_intercalate hlines
  rw [h] at hstream
  have hcommands : Command.ofScript ("\n".intercalate lines) = cs := by
    rw [Command.ofScript, ← Event.commands_map_atLine 0, hstream, Event.commands_map_command]
  have hfault := Event.firstFault?_map_command cs
  rw [← hstream, Event.firstFault?_map_atLine, Option.map_eq_none_iff] at hfault
  rw [ofScript_eq_ofStream, hcommands, hfault, ite_self]

/-- The run of a script follows its event stream: it obeys the first commands of the stream, as
many as the ceiling allows, and ends with the fault of the stream if the commands before it leave
room. -/
theorem ofScript_eq_ofCommands (script : String) (options : Options) :
    let stream := Line.stream (Line.ofScript script)
    let commands := Event.commands stream
    ofScript script options =
      { steps := (Command.trace options.color (commands.take options.maxSteps)).mapIdx Step.mk
        fault := if commands.length < max options.maxSteps 1 then Event.firstFault? stream else none
        pathLength := Effect.total .pathLength
          (Command.effects (.fresh options.color) (commands.take options.maxSteps))
        totalTurns := Effect.total .totalTurns
          (Command.effects (.fresh options.color) (commands.take options.maxSteps)) } :=
  ofScript_eq_ofStream script options

end Run

end TurtleGraphics
