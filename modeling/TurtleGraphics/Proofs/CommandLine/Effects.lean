import TurtleGraphics.CommandLine.Program
import TurtleGraphics.Proofs.CommandLine.Disk

/-!
# What the commands leave behind

Checking a script reads files and never writes one; the exit status tells whether the level is
solved, and nothing is printed before the script has been run. Running a script writes the drawing,
then the dump, and prints last; the first of these that fails ends it, and a fault of the script
ends nothing. Main statement: `program_effects`.

What a task finds out without leaving a trace is said once for each (`Task.Finds`), and the commands
are followed from one such task to the next.
-/

namespace TurtleGraphics.CommandLine

variable {α β : Type} {d d' : Disk}

/-! ## Tasks on a disk -/

theorem Job.on_bind (d : Disk) (j : Job α) (f : α → Job β) :
    (j.bind f).on d =
      let first := j.on d
      let second := (f first.value).on first.disk
      ⟨second.value, first.printed ++ second.printed, second.disk⟩ := by
  induction j generalizing d with
  | done a => simp [bind, on]
  | read path next ih => exact ih (d.read path) d
  | write path text next ih =>
    simp only [bind, on]
    cases d.write path text with
    | error fault => exact ih (.error fault) d
    | ok d' => exact ih (.ok ()) d'
  | print text next ih => simp only [bind, on, ih, String.append_assoc]

namespace Task

/-- What the task leaves behind on a disk. -/
def on (d : Disk) (t : Task α) : Aftermath (Except Failure α) := t.run.on d

/-- A task goes on from where the one before it ended, unless that one failed. -/
theorem on_bind (d : Disk) (t : Task α) (f : α → Task β) :
    (t >>= f).on d =
      match (t.on d).value with
      | .error failure => ⟨.error failure, (t.on d).printed, (t.on d).disk⟩
      | .ok a =>
        let second := (f a).on (t.on d).disk
        ⟨second.value, (t.on d).printed ++ second.printed, second.disk⟩ := by
  have hbind : (t >>= f).on d = _ := Job.on_bind d t.run _
  rw [hbind]
  unfold on
  cases hfirst : Job.on d t.run with
  | mk value printed disk =>
    cases value with
    | ok a => rfl
    | error failure =>
      change (⟨.error failure, printed ++ "", disk⟩ : Aftermath (Except Failure β)) = _
      rw [String.append_empty]

theorem on_bind_of_ok {t : Task α} {a : α} (h : t.on d = ⟨.ok a, "", d'⟩) (f : α → Task β) :
    (t >>= f).on d = (f a).on d' := by
  rw [on_bind, h]
  simp

theorem on_bind_of_error {t : Task α} {failure : Failure} (h : t.on d = ⟨.error failure, "", d'⟩)
    (f : α → Task β) : (t >>= f).on d = ⟨.error failure, "", d'⟩ := by
  rw [on_bind, h]

theorem on_print (d : Disk) (text : String) : (Task.print text).on d = ⟨.ok (), text, d⟩ := by
  simp [Task.print, on, Job.on]

theorem on_throw (d : Disk) (failure : Failure) :
    (throw failure : Task α).on d = ⟨.error failure, "", d⟩ := rfl

/-- The task prints nothing, changes nothing, and finds out what is described by `p` or fails if
there is no such thing. -/
def Finds (d : Disk) (t : Task α) (p : α → Prop) : Prop :=
  ∃ value, t.on d = ⟨value, "", d⟩ ∧ ∀ a, value = .ok a ↔ p a

variable {t : Task α} {p : α → Prop}

theorem Finds.on_of (h : Finds d t p) {a : α} (ha : p a) : t.on d = ⟨.ok a, "", d⟩ := by
  obtain ⟨value, hon, hvalue⟩ := h
  obtain rfl := (hvalue a).2 ha
  exact hon

theorem Finds.on_of_not (h : Finds d t p) (hp : ∀ a, ¬ p a) :
    ∃ failure, t.on d = ⟨.error failure, "", d⟩ := by
  obtain ⟨value, hon, hvalue⟩ := h
  cases value with
  | error failure => exact ⟨failure, hon⟩
  | ok a => exact absurd ((hvalue a).1 rfl) (hp a)

/-- What is found is what the next task goes on with. -/
theorem Finds.on_bind_of (h : Finds d t p) (f : α → Task β) {a : α} (ha : p a) :
    (t >>= f).on d = (f a).on d := on_bind_of_ok (h.on_of ha) f

/-- Nothing comes of what is not found. -/
theorem Finds.on_bind_of_not (h : Finds d t p) (f : α → Task β) (hp : ∀ a, ¬ p a) :
    ∃ failure, (t >>= f).on d = ⟨.error failure, "", d⟩ := by
  obtain ⟨failure, hon⟩ := h.on_of_not hp
  exact ⟨failure, on_bind_of_error hon f⟩

/-- What is found by means of something found before. -/
theorem Finds.bind (h : Finds d t p) {f : α → Task β} {q : α → β → Prop}
    (hf : ∀ a, p a → Finds d (f a) (q a)) : Finds d (t >>= f) fun b ↦ ∃ a, p a ∧ q a b := by
  by_cases hp : ∃ a, p a
  · obtain ⟨a, ha⟩ := hp
    obtain ⟨value, hon, hvalue⟩ := hf a ha
    refine ⟨value, (h.on_bind_of f ha).trans hon, fun b ↦ ?_⟩
    rw [hvalue b]
    constructor
    · exact fun hq ↦ ⟨a, ha, hq⟩
    · rintro ⟨a', ha', hq⟩
      have heq := congrArg Aftermath.value ((h.on_of ha').symm.trans (h.on_of ha))
      obtain rfl : a' = a := Except.ok.inj heq
      exact hq
  · obtain ⟨failure, hon⟩ := h.on_bind_of_not f (not_exists.1 hp)
    refine ⟨.error failure, hon, fun b ↦ ?_⟩
    constructor
    · intro hb
      cases hb
    · rintro ⟨a, ha, -⟩
      exact absurd ⟨a, ha⟩ hp

theorem finds_read (d : Disk) (path : String) :
    Finds d (Task.read path) (d.read path = .ok ·) := by
  refine ⟨(d.read path).mapError fun fault ↦ ⟨s!"Reading {path}", [fault.message]⟩, ?_, ?_⟩
  · change Job.on d (.read path _) = _
    rw [Job.on]
    cases d.read path with
    | error fault => rfl
    | ok text => rfl
  · intro text
    cases d.read path with
    | error fault => simp [Except.mapError]
    | ok text' => simp [Except.mapError]

end Task

/-! ## Checking a script -/

/-- Whether the catalog is the one in the file, or the built-in one if no file is given. -/
def Disk.Loads (d : Disk) : Option String → Catalog → Prop
  | none, c => c = .builtIn
  | some path, c => ∃ text, d.read path = .ok text ∧ Catalog.ofString text = .ok c

theorem finds_loadCatalog (d : Disk) (catalog : Option String) :
    Task.Finds d (loadCatalog catalog) (d.Loads catalog) := by
  cases catalog with
  | none => exact ⟨_, rfl, fun c ↦ ⟨fun h ↦ (Except.ok.inj h).symm, fun h ↦ congrArg _ h.symm⟩⟩
  | some path =>
    refine (Task.finds_read d path).bind fun text _ ↦ ?_
    cases Catalog.ofString text with
    | error fault => exact ⟨_, rfl, fun c ↦ by simp⟩
    | ok c => exact ⟨_, rfl, fun c' ↦ by simp⟩

theorem finds_findLevel (d : Disk) (c : Catalog) (id : Nat) :
    Task.Finds d (findLevel c id) (c.level id = .ok ·) := by
  unfold findLevel
  cases c.level id with
  | error fault => exact ⟨_, rfl, fun level ↦ by simp⟩
  | ok level => exact ⟨_, rfl, fun level' ↦ by simp⟩

/-- What is needed for a check: the catalog, the level in it and the text of the script. -/
def Disk.Provides (d : Disk) (id : Nat) (script : String) (catalog : Option String) (level : Level)
    (source : String) : Prop :=
  ∃ c, d.Loads catalog c ∧ c.level id = .ok level ∧ d.read script = .ok source

theorem Disk.Loads.unique {catalog : Option String} {c c' : Catalog} (h : d.Loads catalog c)
    (h' : d.Loads catalog c') : c = c' := by
  cases catalog with
  | none => exact h.trans h'.symm
  | some path =>
    obtain ⟨text, htext, hc⟩ := h
    obtain ⟨text', htext', hc'⟩ := h'
    obtain rfl := Except.ok.inj (htext.symm.trans htext')
    exact Except.ok.inj (hc.symm.trans hc')

theorem Disk.Provides.unique {id : Nat} {script source source' : String} {catalog : Option String}
    {level level' : Level} (h : d.Provides id script catalog level source)
    (h' : d.Provides id script catalog level' source') : level = level' ∧ source = source' := by
  obtain ⟨c, hc, hlevel, hsource⟩ := h
  obtain ⟨c', hc', hlevel', hsource'⟩ := h'
  obtain rfl := hc.unique hc'
  exact ⟨Except.ok.inj (hlevel.symm.trans hlevel'), Except.ok.inj (hsource.symm.trans hsource')⟩

theorem on_checkScript_of_provides {id : Nat} {script source : String} {catalog : Option String}
    {level : Level} (h : d.Provides id script catalog level source) (options : Options) :
    (checkScript id script catalog options).on d =
      (announce level (Run.ofScript source options)).on d := by
  obtain ⟨c, hc, hlevel, hsource⟩ := h
  rw [checkScript, (finds_loadCatalog d catalog).on_bind_of _ hc,
    (finds_findLevel d c id).on_bind_of _ hlevel, (Task.finds_read d script).on_bind_of _ hsource]

theorem on_checkScript_of_not_provides {id : Nat} {script : String} {catalog : Option String}
    (h : ∀ level source, ¬ d.Provides id script catalog level source) (options : Options) :
    ∃ failure, (checkScript id script catalog options).on d = ⟨.error failure, "", d⟩ := by
  unfold checkScript
  by_cases hc : ∃ c, d.Loads catalog c
  · obtain ⟨c, hc⟩ := hc
    rw [(finds_loadCatalog d catalog).on_bind_of _ hc]
    by_cases hlevel : ∃ level, c.level id = .ok level
    · obtain ⟨level, hlevel⟩ := hlevel
      rw [(finds_findLevel d c id).on_bind_of _ hlevel]
      exact (Task.finds_read d script).on_bind_of_not _
        fun source hsource ↦ h level source ⟨c, hc, hlevel, hsource⟩
    · exact (finds_findLevel d c id).on_bind_of_not _ (not_exists.1 hlevel)
  · exact (finds_loadCatalog d catalog).on_bind_of_not _ (not_exists.1 hc)

theorem on_announce (d : Disk) (level : Level) (r : Run) :
    ((announce level r).on d).disk = d ∧
      (((announce level r).on d).value = .ok () ↔ level.evaluate r = .solved) := by
  unfold announce
  cases level.evaluate r with
  | solved => simp [Task.on_bind, Task.on_print]
  | unsolved =>
    cases level.hints.head? with
    | none => simp [Task.on_bind, Task.on_print, Task.on_throw]
    | some hint => simp [Task.on_bind, Task.on_print, Task.on_throw]
  | errored reason => simp [Task.on_bind, Task.on_print, Task.on_throw]

/-- A check changes no file, succeeds if the level is there and the script solves it, and prints
nothing without them. -/
theorem on_checkScript (d : Disk) (id : Nat) (script : String) (catalog : Option String)
    (options : Options) :
    let after := (checkScript id script catalog options).on d
    after.disk = d ∧
      (after.value = .ok () ↔ ∃ level source, d.Provides id script catalog level source ∧
        level.evaluate (Run.ofScript source options) = .solved) ∧
      ((∀ level source, ¬ d.Provides id script catalog level source) → after.printed = "") := by
  intro after
  by_cases hprovides : ∃ level source, d.Provides id script catalog level source
  · obtain ⟨level, source, hprovides⟩ := hprovides
    obtain ⟨hdisk, hvalue⟩ := on_announce d level (Run.ofScript source options)
    rw [← on_checkScript_of_provides hprovides] at hdisk hvalue
    refine ⟨hdisk, hvalue.trans ⟨fun h ↦ ⟨level, source, hprovides, h⟩, ?_⟩, ?_⟩
    · rintro ⟨level', source', hprovides', h⟩
      obtain ⟨rfl, rfl⟩ := hprovides.unique hprovides'
      exact h
    · exact fun hnot ↦ absurd hprovides (hnot level source)
  · simp only [not_exists] at hprovides
    obtain ⟨failure, hon⟩ := on_checkScript_of_not_provides hprovides options
    simp only [after, hon]
    refine ⟨trivial, ⟨fun h ↦ (by cases h), ?_⟩, fun _ ↦ trivial⟩
    rintro ⟨level, source, h, -⟩
    exact absurd h (hprovides level source)

/-! ## Running a script -/

/-- The disk after a text has been written to a file, if one is asked for. -/
def Disk.writeTo (d : Disk) : Option String → String → Except FileFault Disk
  | none, _ => .ok d
  | some path, text => d.write path text

theorem Disk.writeTo_eq_ok_iff {file : Option String} {text : String} :
    d.writeTo file text = .ok d' ↔
      file = none ∧ d' = d ∨ ∃ path, file = some path ∧ d.write path text = .ok d' := by
  cases file with
  | none => simp [writeTo, eq_comm]
  | some path => simp [writeTo]

theorem Disk.locate_writeTo_iff {file : Option String} {text path : String} {place : Place}
    (h : d.writeTo file text = .ok d') :
    d'.locate path = .ok place ↔ d.locate path = .ok place := by
  obtain ⟨-, rfl⟩ | ⟨file, -, h⟩ := writeTo_eq_ok_iff.1 h
  · rfl
  · exact locate_write_iff h

namespace Task

variable {file : Option String} {text : String} {fault : FileFault}

theorem on_writeTo_of_ok (h : d.writeTo file text = .ok d') :
    (Task.writeTo file text).on d = ⟨.ok (), "", d'⟩ := by
  obtain ⟨rfl, rfl⟩ | ⟨path, rfl, hwrite⟩ := Disk.writeTo_eq_ok_iff.1 h
  · rfl
  · change Job.on d (.write path text _) = _
    rw [Job.on, hwrite]
    rfl

theorem on_writeTo_of_error (h : d.writeTo file text = .error fault) :
    ∃ failure, (Task.writeTo file text).on d = ⟨.error failure, "", d⟩ := by
  cases file with
  | none => cases h
  | some path =>
    refine ⟨⟨s!"Writing {path}", [fault.message]⟩, ?_⟩
    change Job.on d (.write path text _) = _
    rw [Job.on, show d.write path text = .error fault from h]
    rfl

end Task

/-- What is left behind when the run `r` is shown: its drawing and then its dump in the files asked
for, and on paper the dump or the summary, up to the first of these that cannot be written. -/
structure Shown (d : Disk) (json : Bool) (jsonOut svg : Option String) (r : Run)
    (after : Aftermath Nat) : Prop where
  of_drawing_error : ∀ fault, d.writeTo svg (Drawing.render r.steps) = .error fault →
    after = ⟨1, "", d⟩
  of_dump_error : ∀ drawn fault, d.writeTo svg (Drawing.render r.steps) = .ok drawn →
    drawn.writeTo jsonOut (r.dump ++ "\n") = .error fault → after = ⟨1, "", drawn⟩
  of_ok : ∀ drawn dumped, d.writeTo svg (Drawing.render r.steps) = .ok drawn →
    drawn.writeTo jsonOut (r.dump ++ "\n") = .ok dumped →
      after = ⟨0, if json then r.dump ++ "\n" else r.summary, dumped⟩

namespace Shown

variable {json : Bool} {jsonOut svg : Option String} {r : Run} {after : Aftermath Nat}

/-- Something is written, or cannot be. -/
theorem cases (h : Shown d json jsonOut svg r after) :
    (∃ drawn dumped, d.writeTo svg (Drawing.render r.steps) = .ok drawn ∧
      drawn.writeTo jsonOut (r.dump ++ "\n") = .ok dumped ∧
      after = ⟨0, if json then r.dump ++ "\n" else r.summary, dumped⟩) ∨
    (∃ drawn, d.writeTo svg (Drawing.render r.steps) = .ok drawn ∧ after = ⟨1, "", drawn⟩) ∨
    after = ⟨1, "", d⟩ := by
  cases hdrawn : d.writeTo svg (Drawing.render r.steps) with
  | error fault => exact .inr (.inr (h.of_drawing_error fault hdrawn))
  | ok drawn =>
    cases hdumped : drawn.writeTo jsonOut (r.dump ++ "\n") with
    | error fault => exact .inr (.inl ⟨drawn, rfl, h.of_dump_error drawn fault hdrawn hdumped⟩)
    | ok dumped => exact .inl ⟨drawn, dumped, rfl, hdumped, h.of_ok drawn dumped hdrawn hdumped⟩

/-- Every file that is changed is one that was asked for. -/
theorem locate_of_get?_ne (h : Shown d json jsonOut svg r after) {place : Place}
    (hplace : after.disk.get? place ≠ d.get? place) :
    ∃ path, (path ∈ svg ∨ path ∈ jsonOut) ∧ d.locate path = .ok place := by
  have hsvg {drawn : Disk} (hdrawn : d.writeTo svg (Drawing.render r.steps) = .ok drawn)
      (hne : drawn.get? place ≠ d.get? place) :
      ∃ path, (path ∈ svg ∨ path ∈ jsonOut) ∧ d.locate path = .ok place := by
    obtain ⟨-, rfl⟩ | ⟨path, rfl, hwrite⟩ := Disk.writeTo_eq_ok_iff.1 hdrawn
    · exact absurd rfl hne
    · exact ⟨path, .inl rfl, Disk.locate_of_write hwrite hne⟩
  rcases h.cases with ⟨drawn, dumped, hdrawn, hdumped, rfl⟩ | ⟨drawn, hdrawn, rfl⟩ | rfl
  · by_cases hne : drawn.get? place = d.get? place
    · rw [← hne] at hplace
      obtain ⟨-, rfl⟩ | ⟨out, rfl, hwrite⟩ := Disk.writeTo_eq_ok_iff.1 hdumped
      · exact absurd rfl hplace
      · exact ⟨out, .inr rfl,
          (Disk.locate_writeTo_iff hdrawn).1 (Disk.locate_of_write hwrite hplace)⟩
    · exact hsvg hdrawn hne
  · exact hsvg hdrawn hplace
  · exact absurd rfl hplace

/-- What came of a run that ended well. -/
theorem of_status (h : Shown d json jsonOut svg r after) (hstatus : after.value = 0) :
    ∃ drawn dumped, d.writeTo svg (Drawing.render r.steps) = .ok drawn ∧
      drawn.writeTo jsonOut (r.dump ++ "\n") = .ok dumped ∧
      after = ⟨0, if json then r.dump ++ "\n" else r.summary, dumped⟩ := by
  rcases h.cases with h | ⟨drawn, -, rfl⟩ | rfl
  · exact h
  · cases hstatus
  · cases hstatus

theorem has_dump (h : Shown d json jsonOut svg r after) (hstatus : after.value = 0) {out : String}
    (hout : out ∈ jsonOut) : after.disk.Has out (r.dump ++ "\n") := by
  obtain ⟨drawn, dumped, -, hdumped, rfl⟩ := h.of_status hstatus
  obtain rfl : jsonOut = some out := hout
  exact Disk.has_of_write hdumped

theorem has_drawing (h : Shown d json jsonOut svg r after) (hstatus : after.value = 0)
    {path : String} (hpath : path ∈ svg) (hne : ∀ out ∈ jsonOut, d.locate out ≠ d.locate path) :
    after.disk.Has path (Drawing.render r.steps) := by
  obtain ⟨drawn, dumped, hdrawn, hdumped, rfl⟩ := h.of_status hstatus
  obtain rfl : svg = some path := hpath
  have hhas : drawn.Has path (Drawing.render r.steps) := Disk.has_of_write hdrawn
  obtain ⟨-, rfl⟩ | ⟨out, rfl, hwrite⟩ := Disk.writeTo_eq_ok_iff.1 hdumped
  · exact hhas
  · refine hhas.write hwrite fun place hout hpath ↦ hne out rfl ?_
    exact ((Disk.locate_writeTo_iff hdrawn).1 hout).trans
      ((Disk.locate_writeTo_iff hdrawn).1 hpath).symm

/-- What is printed as a dump is what is in the file. -/
theorem has_printed (h : Shown d json jsonOut svg r after) (hstatus : after.value = 0)
    (hjson : json = true) {out : String} (hout : out ∈ jsonOut) :
    after.disk.Has out after.printed := by
  have hdump := h.has_dump hstatus hout
  obtain ⟨drawn, dumped, -, -, rfl⟩ := h.of_status hstatus
  rw [hjson]
  exact hdump

end Shown

theorem on_runScript_of_read_error {script : String} {fault : FileFault}
    (h : d.read script = .error fault) (json : Bool) (jsonOut svg : Option String)
    (options : Options) :
    ∃ failure, (runScript script json jsonOut svg options).on d = ⟨.error failure, "", d⟩ := by
  unfold runScript
  refine (Task.finds_read d script).on_bind_of_not _ fun source hsource ↦ ?_
  rw [h] at hsource
  cases hsource

theorem shown_runScript {script source : String} (h : d.read script = .ok source) (json : Bool)
    (jsonOut svg : Option String) (options : Options) :
    let after := (runScript script json jsonOut svg options).on d
    Shown d json jsonOut svg (Run.ofScript source options)
      ⟨if after.value = .ok () then 0 else 1, after.printed, after.disk⟩ := by
  intro after
  simp only [after, runScript, (Task.finds_read d script).on_bind_of _ h]
  constructor
  · intro fault hfault
    obtain ⟨failure, hon⟩ := Task.on_writeTo_of_error hfault
    rw [Task.on_bind_of_error hon]
    rfl
  · intro drawn fault hdrawn hfault
    obtain ⟨failure, hon⟩ := Task.on_writeTo_of_error hfault
    rw [Task.on_bind_of_ok (Task.on_writeTo_of_ok hdrawn), Task.on_bind_of_error hon]
    rfl
  · intro drawn dumped hdrawn hdumped
    rw [Task.on_bind_of_ok (Task.on_writeTo_of_ok hdrawn),
      Task.on_bind_of_ok (Task.on_writeTo_of_ok hdumped), Task.on_print]
    rfl

/-! ## The program -/

/-- What the program leaves behind on a disk: its exit status, what it prints and the files. -/
def Disk.afterProgram (d : Disk) (args : List String) : Aftermath Nat :=
  let after := (program args).on d
  ⟨after.value.status, after.printed, after.disk⟩

/-- How the program ends when its task ends in the given way. -/
def Ending.ofTask : Except Failure Unit → Ending
  | .ok () => ⟨0, ""⟩
  | .error failure => ⟨1, failure.report⟩

theorem afterProgram_eq {args : List String} {action : Action}
    (h : Action.ofArgs args = .ok action) (d : Disk) :
    d.afterProgram args =
      let after := action.task.on d
      ⟨if after.value = .ok () then 0 else 1, after.printed, after.disk⟩ := by
  have hprogram : program args =
      Job.bind action.task.run fun ending ↦ .done (Ending.ofTask ending) := by
    unfold program
    rw [h]
    change Job.bind action.task.run _ = _
    congr 1
    funext ending
    cases ending <;> rfl
  rw [Disk.afterProgram, hprogram, Job.on_bind]
  unfold Task.on
  cases Job.on d action.task.run with
  | mk value printed disk =>
    cases value with
    | ok a => simp [Job.on, Ending.ofTask]
    | error failure => simp [Job.on, Ending.ofTask]

/-- A check writes no file; its exit status is 0 if the catalog, the level in it and the script are
there and the script solves the level; without them it prints nothing. A run without a script does
nothing at all. Otherwise it writes the drawing, then the dump, to the files asked for and to no
others, and then prints, whether or not the script met a fault: its exit status is 0 if the files
can be written, and what comes after a file that cannot be written is not done. What it prints as a
dump is what the file of the dump holds. -/
theorem program_effects (d : Disk) (args : List String) :
    let after := d.afterProgram args
    (∀ id script catalog options,
      Action.ofArgs args = .ok (.check id script catalog options) →
      after.disk = d ∧
      (after.value = 0 ↔ ∃ level source, d.Provides id script catalog level source ∧
        level.evaluate (Run.ofScript source options) = .solved) ∧
      ((∀ level source, ¬ d.Provides id script catalog level source) → after.printed = "")) ∧
    (∀ script json jsonOut svg options,
      Action.ofArgs args = .ok (.run script json jsonOut svg options) →
      (∀ fault, d.read script = .error fault → after = ⟨1, "", d⟩) ∧
      ∀ source, d.read script = .ok source →
        let r := Run.ofScript source options
        Shown d json jsonOut svg r after ∧
        (∀ place, after.disk.get? place ≠ d.get? place →
          ∃ path, (path ∈ svg ∨ path ∈ jsonOut) ∧ d.locate path = .ok place) ∧
        (after.value = 0 →
          (∀ path ∈ svg, (∀ out ∈ jsonOut, d.locate out ≠ d.locate path) →
            after.disk.Has path (Drawing.render r.steps)) ∧
          ∀ out ∈ jsonOut, after.disk.Has out (r.dump ++ "\n") ∧
            (json = true → after.disk.Has out after.printed))) := by
  intro after
  constructor
  · intro id script catalog options haction
    obtain ⟨hdisk, hvalue, hprinted⟩ := on_checkScript d id script catalog options
    simp only [after, afterProgram_eq haction]
    refine ⟨hdisk, ?_, hprinted⟩
    rw [← hvalue]
    change (if ((checkScript id script catalog options).on d).value = .ok () then 0 else 1) = 0 ↔ _
    split
    · rename_i hok
      exact iff_of_true rfl hok
    · rename_i herror
      exact iff_of_false Nat.one_ne_zero herror
  · intro script json jsonOut svg options haction
    have hafter : after = _ := afterProgram_eq haction d
    constructor
    · intro fault hfault
      obtain ⟨failure, hon⟩ := on_runScript_of_read_error hfault json jsonOut svg options
      rw [hafter]
      simp only [Action.task, hon]
      rfl
    · intro source hsource r
      have hshown : Shown d json jsonOut svg r after := by
        rw [hafter]
        exact shown_runScript hsource json jsonOut svg options
      exact ⟨hshown, fun place ↦ hshown.locate_of_get?_ne, fun hstatus ↦
        ⟨fun path hpath hne ↦ hshown.has_drawing hstatus hpath hne, fun out hout ↦
          ⟨hshown.has_dump hstatus hout, fun hjson ↦ hshown.has_printed hstatus hjson hout⟩⟩⟩

/-- A script that is at fault is dumped, to a file and on paper. -/
theorem program_effects_of_fault :
    let d := Disk.ofFiles [("a.py", some "fd(x)")]
    let after := d.afterProgram ["run", "a.py", "--json", "--json-out=a.json"]
    after.value = 0 ∧ after.disk.Has "a.json" after.printed := by
  intro d after
  have haction : Action.ofArgs ["run", "a.py", "--json", "--json-out=a.json"] =
      .ok (.run "a.py" true (some "a.json") none {}) := by decide +kernel
  have hread : d.read "a.py" = .ok "fd(x)" := by decide +kernel
  have hwrite (text : String) :
      d.writeTo (some "a.json") text = .ok (d.put ["tmp", "", "a.json"] text) := by rfl
  obtain ⟨hshown, -, hfiles⟩ := (program_effects d _).2 _ _ _ _ _ haction |>.2 _ hread
  have hafter := hshown.of_ok d _ rfl (hwrite _)
  have hstatus : after.value = 0 := congrArg Aftermath.value hafter
  exact ⟨hstatus, ((hfiles hstatus).2 _ rfl).2 rfl⟩

end TurtleGraphics.CommandLine
