import TurtleGraphics.CommandLine.Action
import TurtleGraphics.Proofs.CommandLine.Arguments
import TurtleGraphics.Proofs.Script.Listing

/-!
# Command lines of actions

An action can be asked for in many ways: its options and flags stand in any order and anywhere
between its values by position, options may be written in one argument or in two, and those that
have the default value may be left out. Main statement:

* `Action.ofArgs_layout`: each of the ways asks for that very action.

Between the arguments and the action are the values that were read. Those of an action are all of
them that are no default, and nothing else (`Values.Describe`); that is enough to make the action up
again (`Values.Describe.action_eq`).
-/

namespace TurtleGraphics

/-- The options of a run as they are written. -/
def Options.written (o : Options) : List (String × String) :=
  [("max-steps", toString o.maxSteps), ("color", o.color)]

@[simp] theorem Options.mem_written {o : Options} {name value : String} :
    (name, value) ∈ o.written ↔
      name = "max-steps" ∧ value = toString o.maxSteps ∨ name = "color" ∧ value = o.color := by
  simp [Options.written]

namespace CommandLine

/-! ## Numbers -/

theorem digits?_toString (n : Nat) : digits? (toString n).toList = some n := by
  obtain ⟨hne, hdigits⟩ := Token.isDigits_toString n
  obtain ⟨c, cs, hcs⟩ := List.exists_cons_of_ne_nil (mt String.toList_eq_nil_iff.1 hne)
  have hvalue := digitsValue_toList (toString n)
  rw [Token.decimal_toString, hcs, digitsValue] at hvalue
  rw [hcs] at hdigits ⊢
  rw [digits?, if_pos hdigits, hvalue]
  exact List.cons_ne_nil c cs

/-- A number does not begin with a sign. -/
theorem head?_toString (n : Nat) (c : Char) (cs : List Char) (h : (toString n).toList = c :: cs) :
    c ≠ '+' ∧ c ≠ '-' := by
  have hdigit : c.isDigit := Token.isDigit_of_mem_toString (h ▸ List.mem_cons_self)
  constructor
  · rintro rfl
    exact absurd hdigit (by decide)
  · rintro rfl
    exact absurd hdigit (by decide)

theorem levelId?_toString {n : Nat} (h : n < UInt32.size) : levelId? (toString n) = some n := by
  unfold levelId?
  split
  · rename_i cs hcs
    exact absurd rfl (head?_toString n _ cs hcs).1
  · rename_i cs hcs
    exact absurd rfl (head?_toString n _ cs hcs).2
  · rw [digits?_toString, Option.filter_some, if_pos (decide_eq_true h)]

theorem stepLimit?_toString {n : Nat} (h : n < UInt64.size) :
    stepLimit? (toString n) = some n := by
  unfold stepLimit?
  split
  · rename_i cs hcs
    exact absurd rfl (head?_toString n _ cs hcs).1
  · rw [digits?_toString, Option.filter_some, if_pos (decide_eq_true h)]

/-! ## Commands -/

namespace Command

def name : Command → String
  | run => "run"
  | check => "check"
  | preview => "preview"
  | levels => "levels"

/-- Behind the name of a command stand its arguments. -/
theorem ofArgs_name (c : Command) (args : List String) :
    Action.ofArgs (c.name :: args) = (do return c.action (← c.form.read args)) := by
  cases c <;> rfl

theorem isProper_form (c : Command) : c.form.IsProper := by
  cases c <;> exact ⟨by decide, by decide⟩

end Command

/-! ## Actions as they are written -/

/-- An option that may be absent. -/
def optional (name : String) (value? : Option String) : List (String × String) :=
  value?.toList.map (name, ·)

@[simp] theorem mem_optional {name name' value : String} {value? : Option String} :
    (name', value) ∈ optional name value? ↔ name' = name ∧ value? = some value := by
  simp [optional, and_comm, eq_comm]

namespace Action

/-- The command of an action. -/
def command : Action → Command
  | run .. => .run
  | check .. => .check
  | preview .. => .preview
  | levels .. => .levels

/-- The values by position. -/
def values : Action → List String
  | run script .. => [script]
  | check level script .. => [toString level, script]
  | preview level .. => [toString level]
  | levels _ => []

def flags : Action → List String
  | run _ json .. => if json then ["json"] else []
  | _ => []

/-- The options with their values, those with the default value among them. -/
def options : Action → List (String × String)
  | run _ _ jsonOut svg options =>
    optional "json-out" jsonOut ++ optional "svg" svg ++ options.written
  | check _ _ catalog options => optional "levels" catalog ++ options.written
  | preview _ svg catalog => ("svg", svg) :: optional "levels" catalog
  | levels catalog => optional "levels" catalog

/-- Everything that is said of the fields of the command. A flag has an empty value. -/
def entries (a : Action) : List (String × String) :=
  (a.command.form.positions.map Field.name).zip a.values ++ a.options ++ a.flags.map (·, "")

section

variable (level : Nat) (script : String) (json : Bool) (jsonOut svg : Option String)
  (drawing : String) (catalog : Option String) (options : Options)

@[simp] theorem entries_run : (run script json jsonOut svg options).entries =
    ("script", script) :: (optional "json-out" jsonOut ++ optional "svg" svg ++ options.written) ++
      (if json then ["json"] else []).map (·, "") := rfl

@[simp] theorem entries_check : (check level script catalog options).entries =
    ("level", toString level) :: ("script", script) ::
      (optional "levels" catalog ++ options.written) ++ [] := rfl

@[simp] theorem entries_preview : (preview level drawing catalog).entries =
    ("level", toString level) :: ("svg", drawing) :: optional "levels" catalog ++ [] := rfl

@[simp] theorem entries_levels : (levels catalog).entries = optional "levels" catalog ++ [] := rfl

end

/-- Whether numbers are within their bounds and paths are not empty. -/
def IsValid : Action → Prop
  | run script _ jsonOut svg options =>
    script ≠ "" ∧ (∀ path ∈ jsonOut, path ≠ "") ∧ (∀ path ∈ svg, path ≠ "") ∧
      options.maxSteps < UInt64.size
  | check level script catalog options =>
    level < UInt32.size ∧ script ≠ "" ∧ (∀ path ∈ catalog, path ≠ "") ∧
      options.maxSteps < UInt64.size
  | preview level svg catalog =>
    level < UInt32.size ∧ svg ≠ "" ∧ ∀ path ∈ catalog, path ≠ ""
  | levels catalog => ∀ path ∈ catalog, path ≠ ""

end Action

/-- Whether a layout is a way to ask for an action. Only options that have the default value may be
left out. -/
structure Layout.Spells (l : Layout) (a : Action) : Prop where
  plain : ∀ part ∈ l.parts, part.IsPlain
  values : l.values = a.values
  flags : l.flags = a.flags
  options : l.options ⊆ a.options
  nodup_options : (l.options.map Prod.fst).Nodup
  complete : ∀ o ∈ a.options, o ∈ l.options ∨ o ∈ Options.written {}

theorem map_fst_optional (name : String) (value? : Option String) :
    (optional name value?).map Prod.fst = if value?.isSome then [name] else [] := by
  cases value? <;> rfl

/-- No option is there twice. -/
theorem Action.nodup_options (a : Action) : (a.options.map Prod.fst).Nodup := by
  cases a with
  | run script json jsonOut svg options =>
    rw [Action.options, List.map_append, List.map_append, map_fst_optional, map_fst_optional]
    change (_ ++ ["max-steps", "color"]).Nodup
    cases jsonOut.isSome <;> cases svg.isSome <;> decide
  | check level script catalog options =>
    rw [Action.options, List.map_append, map_fst_optional]
    change (_ ++ ["max-steps", "color"]).Nodup
    cases catalog.isSome <;> decide
  | preview level svg catalog =>
    rw [Action.options, List.map_cons, map_fst_optional]
    change ("svg" :: _).Nodup
    cases catalog.isSome <;> decide
  | levels catalog =>
    rw [Action.options, map_fst_optional]
    cases catalog.isSome <;> decide

/-- The layout with every option in one argument, then the flags, and the values by position after
`--`. -/
def Action.layout (a : Action) : Layout where
  parts := a.options.map (fun o ↦ .option o.1 o.2 true) ++ a.flags.map .flag
  rest := some a.values

/-- Every action can be asked for. -/
theorem Action.spells_layout (a : Action) : a.layout.Spells a := by
  have hvalues : a.layout.values = a.values := by
    simp [Layout.values, layout, List.filterMap_map, Function.comp_def, Part.bare?]
  have hflags : a.layout.flags = a.flags := by
    simp [Layout.flags, layout, List.filterMap_map, Function.comp_def, Part.flag?]
  have hoptions : a.layout.options = a.options := by
    simp [Layout.options, layout, List.filterMap_map, Function.comp_def, Part.option?]
  refine ⟨?_, hvalues, hflags, ?_, ?_, ?_⟩
  · intro part hpart
    obtain hpart | hpart := List.mem_append.1 hpart
    · obtain ⟨o, -, rfl⟩ := List.mem_map.1 hpart
      trivial
    · obtain ⟨name, -, rfl⟩ := List.mem_map.1 hpart
      trivial
  · exact hoptions ▸ List.Subset.refl _
  · exact hoptions ▸ a.nodup_options
  · intro o ho
    exact .inl (hoptions ▸ ho)

/-! ## The arguments are accepted -/

namespace Kind

variable {value : String} {n : Nat}

theorem check_path (h : value ≠ "") : path.check value = .ok () := if_neg h

theorem check_levelId (h : n < UInt32.size) : levelId.check (toString n) = .ok () :=
  if_pos (by rw [levelId?_toString h]; rfl)

theorem check_stepLimit (h : n < UInt64.size) : stepLimit.check (toString n) = .ok () :=
  if_pos (by rw [stepLimit?_toString h]; rfl)

end Kind

namespace Action

variable {a : Action} {o : String × String}

theorem IsValid.values (h : a.IsValid) :
    List.Forall₂ Field.Accepts a.command.form.positions a.values := by
  cases a with
  | run => exact .cons (Kind.check_path h.1) .nil
  | check => exact .cons (Kind.check_levelId h.1) (.cons (Kind.check_path h.2.1) .nil)
  | preview => exact .cons (Kind.check_levelId h.1) .nil
  | levels => exact .nil

/-- The options of a run are accepted by every form that takes them. -/
theorem exists_field_of_mem_written {options : Options} (hlimit : options.maxSteps < UInt64.size)
    (ho : o ∈ options.written) :
    ∃ field ∈ Command.runOptions, field.name = o.1 ∧ field.Accepts o.2 := by
  obtain rfl | ho := List.mem_cons.1 ho
  · exact ⟨⟨"max-steps", .stepLimit⟩, List.mem_cons_self, rfl, Kind.check_stepLimit hlimit⟩
  · obtain rfl := List.mem_singleton.1 ho
    exact ⟨⟨"color", .text⟩, List.mem_cons_of_mem _ List.mem_cons_self, rfl, rfl⟩

theorem exists_field_of_mem_optional {name : String} {value? : Option String} {fields : List Field}
    (hfield : ⟨name, .path⟩ ∈ fields) (hpath : ∀ path ∈ value?, path ≠ "")
    (ho : o ∈ optional name value?) :
    ∃ field ∈ fields, field.name = o.1 ∧ field.Accepts o.2 := by
  obtain ⟨name', path⟩ := o
  obtain ⟨rfl, hmem⟩ := mem_optional.1 ho
  exact ⟨⟨name', .path⟩, hfield, rfl, Kind.check_path (hpath path hmem)⟩

theorem IsValid.exists_field (h : a.IsValid) (ho : o ∈ a.options) :
    ∃ field ∈ a.command.form.options, field.name = o.1 ∧ field.Accepts o.2 := by
  cases a with
  | run script json jsonOut svg options =>
    obtain ⟨-, hjson, hsvg, hlimit⟩ := h
    obtain ho | ho := List.mem_append.1 ho
    · obtain ho | ho := List.mem_append.1 ho
      · exact exists_field_of_mem_optional List.mem_cons_self hjson ho
      · exact exists_field_of_mem_optional (List.mem_cons_of_mem _ List.mem_cons_self) hsvg ho
    · obtain ⟨field, hfield, hfits⟩ := exists_field_of_mem_written hlimit ho
      exact ⟨field, List.mem_append_right _ hfield, hfits⟩
  | check level script catalog options =>
    obtain ⟨-, -, hcatalog, hlimit⟩ := h
    obtain ho | ho := List.mem_append.1 ho
    · exact exists_field_of_mem_optional List.mem_cons_self hcatalog ho
    · obtain ⟨field, hfield, hfits⟩ := exists_field_of_mem_written hlimit ho
      exact ⟨field, List.mem_cons_of_mem _ hfield, hfits⟩
  | preview level svg catalog =>
    obtain ⟨-, hsvg, hcatalog⟩ := h
    obtain rfl | ho := List.mem_cons.1 ho
    · exact ⟨⟨"svg", .path⟩, List.mem_cons_self, rfl, Kind.check_path hsvg⟩
    · exact exists_field_of_mem_optional (List.mem_cons_of_mem _ List.mem_cons_self) hcatalog ho
  | levels catalog => exact exists_field_of_mem_optional List.mem_cons_self h ho

end Action

variable {a : Action} {l : Layout}

theorem Layout.Spells.fits (h : l.Spells a) (hvalid : a.IsValid) : l.Fits a.command.form where
  plain := h.plain
  values := h.values ▸ hvalid.values
  options o ho := hvalid.exists_field (h.options ho)
  flags name hname := by
    rw [h.flags] at hname
    cases a with
    | run script json =>
      cases json with
      | true => exact hname
      | false => cases hname
    | _ => cases hname
  nodup_options := h.nodup_options
  nodup_flags := by
    rw [h.flags]
    cases a with
    | run script json =>
      cases json with
      | true => exact List.nodup_singleton "json"
      | false => exact List.nodup_nil
    | _ => exact List.nodup_nil
  required name hname := by
    cases a with
    | preview level svg catalog =>
      obtain rfl := List.mem_singleton.1 hname
      -- The drawing has no default, so it cannot have been left out.
      obtain ho | ho := h.complete ("svg", svg) List.mem_cons_self
      · exact List.mem_map_of_mem ho
      · simp at ho
    | _ => cases hname

/-! ## The action is made up again -/

/-- Whether values are those of an action, but for defaults that may be missing. -/
structure Values.Describe (v : Values) (a : Action) : Prop where
  sound : ∀ {name value}, v.get? name = some value → (name, value) ∈ a.entries
  complete : ∀ {name value}, (name, value) ∈ a.entries →
    v.get? name = some value ∨ (name, value) ∈ Options.written {}

namespace Values.Describe

variable {v : Values} {name : String}

/-- A field without a default has the one value that the action gives to it, if any. -/
theorem get?_eq (h : v.Describe a) {value? : Option String}
    (hname : name ≠ "max-steps" ∧ name ≠ "color")
    (hvalue : ∀ value, (name, value) ∈ a.entries ↔ value? = some value) :
    v.get? name = value? := by
  refine Option.ext fun value ↦ ?_
  rw [← hvalue]
  constructor
  · exact h.sound
  · intro hmem
    refine (h.complete hmem).resolve_right fun hdefault ↦ ?_
    obtain ⟨hsteps, -⟩ | ⟨hcolor, -⟩ := Options.mem_written.1 hdefault
    · exact hname.1 hsteps
    · exact hname.2 hcolor

theorem text_eq (h : v.Describe a) {value : String} (hname : name ≠ "max-steps" ∧ name ≠ "color")
    (hvalue : ∀ w, (name, w) ∈ a.entries ↔ w = value) : v.text name = value := by
  have hget : v.get? name = some value := h.get?_eq hname fun w ↦ by
    rw [hvalue, Option.some_inj, eq_comm]
  rw [text, hget, Option.getD_some]

theorem level_eq (h : v.Describe a) {n : Nat} (hn : n < UInt32.size)
    (hvalue : ∀ w, ("level", w) ∈ a.entries ↔ w = toString n) : v.level = n := by
  have hget : v.get? "level" = some (toString n) := h.get?_eq (by decide) fun w ↦ by
    rw [hvalue, Option.some_inj, eq_comm]
  rw [level, hget, Option.bind_some, levelId?_toString hn, Option.getD_some]

/-- A field with a default has its value, unless that is the default. -/
theorem get?_eq_or (h : v.Describe a) {value : String}
    (hvalue : ∀ w, (name, w) ∈ a.entries ↔ w = value) :
    v.get? name = some value ∨ v.get? name = none ∧ (name, value) ∈ Options.written {} := by
  cases hget : v.get? name with
  | none =>
    obtain hsome | hdefault := h.complete ((hvalue value).2 rfl)
    · rw [hget] at hsome
      cases hsome
    · exact .inr ⟨rfl, hdefault⟩
  | some w => exact .inl (congrArg some ((hvalue w).1 (h.sound hget)))

theorem options_eq (h : v.Describe a) {options : Options} (hlimit : options.maxSteps < UInt64.size)
    (hsteps : ∀ w, ("max-steps", w) ∈ a.entries ↔ w = toString options.maxSteps)
    (hcolor : ∀ w, ("color", w) ∈ a.entries ↔ w = options.color) : v.options = options := by
  have hsteps' : ((v.get? "max-steps").bind stepLimit?).getD 1000 = options.maxSteps := by
    obtain hget | ⟨hget, hdefault⟩ := h.get?_eq_or hsteps
    · rw [hget, Option.bind_some, stepLimit?_toString hlimit, Option.getD_some]
    · have htext : toString options.maxSteps = toString 1000 := by simpa using hdefault
      rw [hget, Option.bind_none, Option.getD_none, ← Token.decimal_toString 1000, ← htext,
        Token.decimal_toString]
  have hcolor' : (v.get? "color").getD defaultColor = options.color := by
    obtain hget | ⟨hget, hdefault⟩ := h.get?_eq_or hcolor
    · rw [hget, Option.getD_some]
    · rw [hget, Option.getD_none]
      simpa [eq_comm] using hdefault
  cases options
  exact congrArg₂ Options.mk hsteps' hcolor'

/-- The values of an action tell what it is. -/
theorem action_eq (h : v.Describe a) (hvalid : a.IsValid) : a.command.action v = a := by
  cases a with
  | run script json jsonOut svg options =>
    have hscript : v.text "script" = script := h.text_eq (by decide) fun w ↦ by simp
    have hjson : v.get? "json" = if json then some "" else none :=
      h.get?_eq (by decide) fun w ↦ by cases json <;> simp [eq_comm]
    have hhas : v.has "json" = json := by
      rw [has, hjson]
      cases json <;> rfl
    have hout : v.get? "json-out" = jsonOut := h.get?_eq (by decide) fun w ↦ by simp
    have hsvg : v.get? "svg" = svg := h.get?_eq (by decide) fun w ↦ by simp
    have hoptions : v.options = options :=
      h.options_eq hvalid.2.2.2 (fun w ↦ by simp) fun w ↦ by simp
    change Action.run (v.text "script") (v.has "json") (v.get? "json-out") (v.get? "svg")
      v.options = _
    rw [hscript, hhas, hout, hsvg, hoptions]
  | check level script catalog options =>
    have hlevel : v.level = level := h.level_eq hvalid.1 fun w ↦ by simp
    have hscript : v.text "script" = script := h.text_eq (by decide) fun w ↦ by simp
    have hcatalog : v.get? "levels" = catalog := h.get?_eq (by decide) fun w ↦ by simp
    have hoptions : v.options = options :=
      h.options_eq hvalid.2.2.2 (fun w ↦ by simp) fun w ↦ by simp
    change Action.check v.level (v.text "script") (v.get? "levels") v.options = _
    rw [hlevel, hscript, hcatalog, hoptions]
  | preview level svg catalog =>
    have hlevel : v.level = level := h.level_eq hvalid.1 fun w ↦ by simp
    have hsvg : v.text "svg" = svg := h.text_eq (by decide) fun w ↦ by simp
    have hcatalog : v.get? "levels" = catalog := h.get?_eq (by decide) fun w ↦ by simp
    change Action.preview v.level (v.text "svg") (v.get? "levels") = _
    rw [hlevel, hsvg, hcatalog]
  | levels catalog =>
    have hcatalog : v.get? "levels" = catalog := h.get?_eq (by decide) fun w ↦ by simp
    change Action.levels (v.get? "levels") = _
    rw [hcatalog]

end Values.Describe

/-- What is read from a way to ask for an action are the values of that action. -/
theorem Layout.Spells.describe (h : l.Spells a) {v : Values}
    (hv : ∀ name value, v.get? name = some value ↔ (name, value) ∈ l.entries a.command.form) :
    v.Describe a := by
  have hentries : l.entries a.command.form =
      (a.command.form.positions.map Field.name).zip a.values ++ l.options ++
        a.flags.map (·, "") := by
    rw [Layout.entries, h.values, h.flags]
  constructor
  · intro name value hget
    rw [hv, hentries] at hget
    obtain hmem | hflag := List.mem_append.1 hget
    · obtain hposition | hoption := List.mem_append.1 hmem
      · exact List.mem_append_left _ (List.mem_append_left _ hposition)
      · exact List.mem_append_left _ (List.mem_append_right _ (h.options hoption))
    · exact List.mem_append_right _ hflag
  · intro name value hmem
    rw [hv, hentries]
    obtain hmem | hflag := List.mem_append.1 hmem
    · obtain hposition | hoption := List.mem_append.1 hmem
      · exact .inl (List.mem_append_left _ (List.mem_append_left _ hposition))
      · obtain hwritten | hdefault := h.complete _ hoption
        · exact .inl (List.mem_append_left _ (List.mem_append_right _ hwritten))
        · exact .inr hdefault
    · exact .inl (List.mem_append_right _ hflag)

namespace Action

/-- Whatever the order of options and values and the way in which they are written, a command line
asks for the action that was written down. -/
theorem ofArgs_layout (hvalid : a.IsValid) (h : l.Spells a) :
    ofArgs (a.command.name :: l.args) = .ok a := by
  obtain ⟨v, hread, hv⟩ := Form.read_layout a.command.isProper_form (h.fits hvalid)
  have hdescribe : v.Describe a := h.describe hv
  rw [Command.ofArgs_name, hread]
  exact congrArg Except.ok (hdescribe.action_eq hvalid)

/-- Values that begin with a dash, an option between the values by position, one in two arguments,
and one left out. -/
theorem ofArgs_layout_between :
    ofArgs ["check", "--levels=-x.json", "7", "--color", "red", "--", "-odd.txt"] =
      .ok (.check 7 "-odd.txt" (some "-x.json") { color := "red" }) := by
  let a : Action := .check 7 "-odd.txt" (some "-x.json") { color := "red" }
  let l : Layout :=
    { parts := [.option "levels" "-x.json" true, .bare "7", .option "color" "red" false]
      rest := some ["-odd.txt"] }
  have hvalid : a.IsValid := ⟨by decide, by decide, by simp, by decide⟩
  have hspells : l.Spells a :=
    { plain := by simp [l, Part.IsPlain, beginsWithDash]
      values := rfl
      flags := rfl
      options := by decide
      nodup_options := by decide
      complete := by decide }
  have hargs : a.command.name :: l.args =
    ["check", "--levels=-x.json", "7", "--color", "red", "--", "-odd.txt"] := by decide
  rw [← hargs]
  exact ofArgs_layout hvalid hspells

end Action

end CommandLine

end TurtleGraphics
