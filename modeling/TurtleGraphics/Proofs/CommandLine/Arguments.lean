import Mathlib.Data.List.Nodup
import Mathlib.Data.List.Perm.Basic
import TurtleGraphics.CommandLine.Arguments
import TurtleGraphics.Proofs.Outcome

/-!
# Written arguments are read back

The arguments of a command may be written in many ways: options and flags in any order and between
the values by position, an option in one argument or in two, and values by position after `--`. A
`Layout` is one such way. Whatever the layout, what is read is what was written: the values by
position under the names of the positions, the options and the flags under theirs
(`Form.read_layout`).

An option or a position that was met last is not settled yet, so the state of the reading depends on
what came last. `Reading.StandsFor` abstracts from that: it says what the state is once all that has
been met is settled. One part of the arguments is followed by `Reading.StandsFor.part`, all of them
by induction.
-/

namespace TurtleGraphics.CommandLine

/-! ## Ways to write arguments -/

/-- A part of the arguments of a command. -/
inductive Part where
  /-- An option with its value, joined in one argument or in two. -/
  | option (name value : String) (joined : Bool)
  | flag (name : String)
  /-- A value by position. -/
  | bare (text : String)
deriving DecidableEq, Repr

namespace Part

/-- The arguments that make up the part. -/
def args : Part → List String
  | option name value true => ["--" ++ name ++ "=" ++ value]
  | option name value false => ["--" ++ name, value]
  | flag name => ["--" ++ name]
  | bare text => [text]

def option? : Part → Option (String × String)
  | option name value _ => some (name, value)
  | _ => none

def flag? : Part → Option String
  | flag name => some name
  | _ => none

def bare? : Part → Option String
  | bare text => some text
  | _ => none

end Part

/-- Whether the text begins with a dash, so that it may be taken for an option. -/
def beginsWithDash (s : String) : Prop := s.toList.head? = some '-'

/-- Whether no value that stands by itself may be taken for an option. -/
def Part.IsPlain : Part → Prop
  | option _ value false => value ≠ "" ∧ ¬ beginsWithDash value
  | option _ _ true => True
  | flag _ => True
  | bare text => ¬ beginsWithDash text

/-- A way to write the arguments of a command: its parts, and the values by position that stand
after `--`, if that is written. -/
structure Layout where
  parts : List Part
  rest : Option (List String)
deriving DecidableEq, Repr

namespace Layout

/-- The arguments as they are written. -/
def args (l : Layout) : List String :=
  l.parts.flatMap Part.args ++
    match l.rest with
    | none => []
    | some texts => "--" :: texts

/-- The options with their values. -/
def options (l : Layout) : List (String × String) := l.parts.filterMap Part.option?

def flags (l : Layout) : List String := l.parts.filterMap Part.flag?

/-- The values by position. -/
def values (l : Layout) : List String := l.parts.filterMap Part.bare? ++ l.rest.getD []

end Layout

/-! ## Shapes of written arguments -/

namespace Shape

theorem of_dashes : Shape.of "--" = .dashes := rfl

theorem of_dashes_append (s : String) (h : s ≠ "") : Shape.of ("--" ++ s) = splitLong s.toList := by
  obtain ⟨c, cs, hcs⟩ := List.exists_cons_of_ne_nil (mt String.toList_eq_nil_iff.1 h)
  have hlist : ("--" ++ s).toList = '-' :: '-' :: c :: cs := by
    rw [String.toList_append, hcs]
    rfl
  unfold Shape.of
  rw [hlist, hcs]
  rfl

/-- A name without an equals sign reaches up to what comes next. -/
theorem span_name {name : String} (heq : '=' ∉ name.toList) (cs : List Char) :
    (name.toList ++ cs).takeWhile (· ≠ '=') = name.toList ++ cs.takeWhile (· ≠ '=') ∧
      (name.toList ++ cs).dropWhile (· ≠ '=') = cs.dropWhile (· ≠ '=') := by
  have hall : ∀ c ∈ name.toList, decide (c ≠ '=') = true := by
    intro c hc
    refine decide_eq_true ?_
    rintro rfl
    exact heq hc
  exact ⟨List.takeWhile_append_of_pos hall, List.dropWhile_append_of_pos hall⟩

theorem of_long {name : String} (hname : name ≠ "") (heq : '=' ∉ name.toList) :
    Shape.of ("--" ++ name) = .long name none := by
  obtain ⟨htake, hdrop⟩ := span_name heq []
  rw [List.append_nil] at htake hdrop
  rw [of_dashes_append name hname, splitLong, htake, hdrop]
  simp

theorem of_long_value {name : String} (heq : '=' ∉ name.toList) (value : String) :
    Shape.of ("--" ++ name ++ "=" ++ value) = .long name (some value) := by
  obtain ⟨htake, hdrop⟩ := span_name heq ('=' :: value.toList)
  have hlist : (name ++ ("=" ++ value)).toList = name.toList ++ '=' :: value.toList := by simp
  have hne : name ++ ("=" ++ value) ≠ "" := by
    intro h
    rw [h] at hlist
    simp at hlist
  rw [String.append_assoc, String.append_assoc, of_dashes_append _ hne, splitLong, hlist, htake,
    hdrop]
  simp

theorem of_plain {text : String} (h : ¬ beginsWithDash text) : Shape.of text = .plain := by
  unfold beginsWithDash at h
  unfold Shape.of
  split
  · rename_i hlist
    rw [hlist] at h
    exact absurd rfl h
  · rename_i hlist
    rw [hlist] at h
    exact absurd rfl h
  · rename_i hlist
    rw [hlist] at h
    exact absurd rfl h
  · rfl

end Shape

/-! ## Following one part -/

/-- Whether the text can be the value of the field. -/
def Field.Accepts (field : Field) (text : String) : Prop := field.kind.check text = .ok ()

/-- Whether no two fields of a form have the same name, and the names of its options and flags can
be written as such. -/
structure Form.IsProper (form : Form) : Prop where
  nodup : (form.positions.map Field.name ++ form.options.map Field.name ++ form.flags).Nodup
  written : ∀ name ∈ form.options.map Field.name ++ form.flags,
    name ≠ "" ∧ '=' ∉ name.toList ∧ name ≠ "help"

namespace Form.IsProper

variable {form : Form} {field : Field}

theorem written_option (h : form.IsProper) (hfield : field ∈ form.options) :
    field.name ≠ "" ∧ '=' ∉ field.name.toList ∧ field.name ≠ "help" :=
  h.written field.name (List.mem_append_left _ (List.mem_map_of_mem hfield))

/-- An option is not taken for a flag. -/
theorem not_flag (h : form.IsProper) (hfield : field ∈ form.options) :
    ¬ (field.name = "help" ∨ field.name ∈ form.flags) := by
  rintro (hhelp | hflag)
  · exact (h.written_option hfield).2.2 hhelp
  · exact List.disjoint_of_nodup_append h.nodup
      (List.mem_append_right _ (List.mem_map_of_mem hfield)) hflag

/-- An option is the only one with its name. -/
theorem find?_option (h : form.IsProper) (hfield : field ∈ form.options) :
    form.options.find? (·.name = field.name) = some field := by
  have hnodup : (form.options.map Field.name).Nodup :=
    h.nodup.of_append_left.of_append_right
  cases hfound : form.options.find? (·.name = field.name) with
  | none => simpa using List.find?_eq_none.1 hfound field hfield
  | some found =>
    have hname : found.name = field.name := by simpa using List.find?_some hfound
    rw [List.inj_on_of_nodup_map hnodup (List.mem_of_find?_eq_some hfound) hfield hname]

end Form.IsProper

namespace Reading

variable {form : Form} {r : Reading} {settled : List (String × String)} {left : List Field}
  {onlyValues : Bool} {field : Field} {text : String}

/-- Whether everything met so far, once it is settled, amounts to the given values, with the given
positions still open. -/
def StandsFor (r : Reading) (settled : List (String × String)) (left : List Field)
    (onlyValues : Bool) : Prop := r.settle = .ok { settled, left, onlyValues }

theorem put_eq_ok_iff {s s' : Reading} : s.put field text = .ok s' ↔
    s.settled.lookup field.name = none ∧ field.Accepts text ∧
      { s with settled := (field.name, text) :: s.settled } = s' := by
  unfold put
  cases hlookup : s.settled.lookup field.name with
  | some value => simp [bind, Except.bind, throw, throwThe, MonadExceptOf.throw]
  | none =>
    simp only [Option.isSome_none, Bool.false_eq_true, if_false, true_and]
    rw [bind_eq_ok]
    constructor
    · rintro ⟨_, hcheck, h⟩
      exact ⟨hcheck, return_eq_ok.1 h⟩
    · rintro ⟨hcheck, h⟩
      exact ⟨(), hcheck, return_eq_ok.2 h⟩

/-- What has been met is settled already, but for one field with its value. -/
theorem standsFor_iff : r.StandsFor settled left onlyValues ↔
    r.left = left ∧ r.onlyValues = onlyValues ∧
      (r.pending = none ∧ r.settled = settled ∨
        ∃ field text, r.pending = some (field, some text) ∧
          r.settled.lookup field.name = none ∧ field.Accepts text ∧
            (field.name, text) :: r.settled = settled) := by
  cases r with
  | mk settled' pending left' onlyValues' =>
    unfold StandsFor settle
    cases pending with
    | none =>
      simp only [Except.ok.injEq, mk.injEq, true_and]
      constructor
      · rintro ⟨rfl, rfl, rfl⟩
        exact ⟨rfl, rfl, .inl rfl⟩
      · rintro ⟨rfl, rfl, rfl | ⟨field, text, hpending, -⟩⟩
        · exact ⟨rfl, rfl, rfl⟩
        · cases hpending
    | some met =>
      obtain ⟨field, value⟩ := met
      cases value with
      | none => simp
      | some text =>
        simp only [put_eq_ok_iff, mk.injEq, true_and]
        constructor
        · rintro ⟨hnew, hcheck, rfl, rfl, rfl⟩
          exact ⟨rfl, rfl, .inr ⟨field, text, rfl, hnew, hcheck, rfl⟩⟩
        · rintro ⟨rfl, rfl, ⟨hpending, -⟩ | ⟨field', text', hpending, hnew, hcheck, rfl⟩⟩
          · cases hpending
          · cases hpending
            exact ⟨hnew, hcheck, rfl, rfl, rfl⟩

theorem StandsFor.left_eq (h : r.StandsFor settled left onlyValues) : r.left = left :=
  (standsFor_iff.1 h).1

theorem StandsFor.onlyValues_eq (h : r.StandsFor settled left onlyValues) :
    r.onlyValues = onlyValues := (standsFor_iff.1 h).2.1

/-- No field is without its value. -/
theorem StandsFor.pending_ne (h : r.StandsFor settled left onlyValues) (field : Field) :
    r.pending ≠ some (field, none) := by
  intro hpending
  obtain ⟨hnone, -⟩ | ⟨field', text, hsome, -⟩ := (standsFor_iff.1 h).2.2
  · rw [hnone] at hpending
    cases hpending
  · rw [hsome] at hpending
    cases hpending

theorem standsFor_settled (settled : List (String × String)) (left : List Field)
    (onlyValues : Bool) :
    StandsFor { settled, left, onlyValues } settled left onlyValues := rfl

/-- Whatever is done with the settled state is done with what it stands for. -/
theorem StandsFor.settle_bind {α : Type} (h : r.StandsFor settled left onlyValues)
    (f : Reading → Except Usage α) :
    (r.settle >>= f) = f { settled, left, onlyValues } := by
  rw [show r.settle = _ from h]
  rfl

theorem foldlM_singleton (form : Form) (r : Reading) (arg : String) :
    [arg].foldlM (next form) r = r.next form arg := by
  simp only [List.foldlM_cons, List.foldlM_nil, bind_pure]

/-- A value by position belongs to the first position that is open. -/
theorem StandsFor.position (h : r.StandsFor settled (field :: left) onlyValues)
    (hnew : settled.lookup field.name = none) (hcheck : field.Accepts text) :
    ∃ r', r.position text = .ok r' ∧
      r'.StandsFor ((field.name, text) :: settled) left onlyValues := by
  refine ⟨{ settled, left, onlyValues, pending := some (field, some text) }, ?_, ?_⟩
  · unfold Reading.position
    rw [h.left_eq]
    exact h.settle_bind _
  · exact put_eq_ok_iff.2 ⟨hnew, hcheck, rfl⟩

theorem StandsFor.next_dashes (h : r.StandsFor settled left false) (form : Form) :
    ∃ r', r.next form "--" = .ok r' ∧ r'.StandsFor settled left true := by
  refine ⟨{ r with onlyValues := true }, ?_, ?_⟩
  · unfold next
    rw [h.onlyValues_eq, Shape.of_dashes]
    rfl
  · obtain ⟨hleft, -, hsettled⟩ := standsFor_iff.1 h
    exact standsFor_iff.2 ⟨hleft, rfl, hsettled⟩

/-- After `--` every argument is a value by position. -/
theorem StandsFor.next_after_dashes (h : r.StandsFor settled (field :: left) true) (form : Form)
    (hnew : settled.lookup field.name = none) (hcheck : field.Accepts text) :
    ∃ r', r.next form text = .ok r' ∧ r'.StandsFor ((field.name, text) :: settled) left true := by
  unfold next
  rw [h.onlyValues_eq]
  exact h.position hnew hcheck

/-- Before `--` a value that does not begin with a dash is one by position. -/
theorem StandsFor.next_bare (h : r.StandsFor settled (field :: left) false)
    (hplain : ¬ beginsWithDash text) (hnew : settled.lookup field.name = none)
    (hcheck : field.Accepts text) :
    ∃ r', r.next form text = .ok r' ∧ r'.StandsFor ((field.name, text) :: settled) left false := by
  unfold next
  rw [h.onlyValues_eq, Shape.of_plain hplain]
  simp only [Bool.false_eq_true, if_false]
  split
  · rename_i field' hpending
    exact absurd hpending (h.pending_ne field')
  · exact h.position hnew hcheck

variable {name value : String}

/-- A flag is settled at once, with an empty value. -/
theorem StandsFor.next_flag (h : r.StandsFor settled left false) (hform : form.IsProper)
    (hname : name ∈ form.flags) (hnew : settled.lookup name = none) :
    ∃ r', r.next form ("--" ++ name) = .ok r' ∧
      r'.StandsFor ((name, "") :: settled) left false := by
  obtain ⟨hne, heq, hhelp⟩ := hform.written name (List.mem_append_right _ hname)
  refine ⟨_, ?_, standsFor_settled ((name, "") :: settled) left false⟩
  unfold next
  rw [h.onlyValues_eq, Shape.of_long hne heq]
  simp only [Bool.false_eq_true, if_false]
  unfold long
  rw [if_pos (.inr hname)]
  refine (h.settle_bind _).trans ?_
  change (if name = "help" then _ else _) = _
  rw [if_neg hhelp]
  exact put_eq_ok_iff.2 ⟨hnew, rfl, rfl⟩

/-- So is an option in one argument, with its own. -/
theorem StandsFor.next_joined (h : r.StandsFor settled left false) (hform : form.IsProper)
    (hfield : field ∈ form.options) (hnew : settled.lookup field.name = none)
    (hcheck : field.Accepts value) :
    ∃ r', r.next form ("--" ++ field.name ++ "=" ++ value) = .ok r' ∧
      r'.StandsFor ((field.name, value) :: settled) left false := by
  obtain ⟨-, heq, -⟩ := hform.written_option hfield
  refine ⟨_, ?_, standsFor_settled ((field.name, value) :: settled) left false⟩
  unfold next
  rw [h.onlyValues_eq, Shape.of_long_value heq]
  change r.long form field.name (some value) = _
  unfold long
  rw [if_neg (hform.not_flag hfield), hform.find?_option hfield]
  refine (h.settle_bind _).trans ?_
  exact put_eq_ok_iff.2 ⟨hnew, hcheck, rfl⟩

/-- An option in two arguments waits for its value, which is any text that is not taken for an
option itself. -/
theorem StandsFor.next_detached (h : r.StandsFor settled left false) (hform : form.IsProper)
    (hfield : field ∈ form.options) (hplain : ¬ beginsWithDash value)
    (hnew : settled.lookup field.name = none) (hcheck : field.Accepts value) :
    ∃ r', ["--" ++ field.name, value].foldlM (next form) r = .ok r' ∧
      r'.StandsFor ((field.name, value) :: settled) left false := by
  obtain ⟨hne, heq, -⟩ := hform.written_option hfield
  have hname : r.next form ("--" ++ field.name) =
      .ok { settled, left, onlyValues := false, pending := some (field, none) } := by
    unfold next
    rw [h.onlyValues_eq, Shape.of_long hne heq]
    change r.long form field.name none = _
    unfold long
    rw [if_neg (hform.not_flag hfield), hform.find?_option hfield]
    exact h.settle_bind _
  have hvalue : next form { settled, left, onlyValues := false, pending := some (field, none) }
      value = .ok { settled, left, onlyValues := false, pending := some (field, some value) } := by
    unfold next
    rw [Shape.of_plain hplain]
    rfl
  refine ⟨{ settled, left, onlyValues := false, pending := some (field, some value) }, ?_, ?_⟩
  · rw [List.foldlM_cons, hname]
    exact (foldlM_singleton form _ value).trans hvalue
  · exact put_eq_ok_iff.2 ⟨hnew, hcheck, rfl⟩

end Reading

/-! ## Following all parts -/

/-- What a part amounts to: the field that gets a value, which is one of the form, and the positions
that it leaves open. -/
inductive Part.Fills (form : Form) : List Field → Part → String × String → List Field → Prop where
  | option {field left value} (joined : Bool) :
    field ∈ form.options → field.Accepts value →
      Fills form left (.option field.name value joined) (field.name, value) left
  | flag {name left} : name ∈ form.flags → Fills form left (.flag name) (name, "") left
  | bare {field left text} : field.Accepts text →
      Fills form (field :: left) (.bare text) (field.name, text) left

/-- What parts one after another amount to. -/
inductive Fills (form : Form) :
    List Field → List Part → List (String × String) → List Field → Prop where
  | nil {left} : Fills form left [] [] left
  | cons {left left' left'' part parts entry entries} :
    part.Fills form left entry left' → Fills form left' parts entries left'' →
      Fills form left (part :: parts) (entry :: entries) left''

theorem lookup_eq_none_iff_notMem {entries : List (String × String)} {name : String} :
    entries.lookup name = none ↔ name ∉ entries.map Prod.fst := by
  rw [List.lookup_eq_none_iff, List.mem_map]
  constructor
  · rintro h ⟨entry, hmem, rfl⟩
    simpa using h entry hmem
  · intro h entry hmem
    exact bne_iff_ne.2 fun hname ↦ h ⟨entry, hmem, hname.symm⟩

/-- Of entries under different names, the last one is under a new name. -/
theorem lookup_eq_none_of_nodup {entries settled : List (String × String)} {entry : String × String}
    (h : ((entries ++ entry :: settled).map Prod.fst).Nodup) : settled.lookup entry.1 = none := by
  rw [List.map_append, List.map_cons] at h
  exact lookup_eq_none_iff_notMem.2 (List.nodup_cons.1 h.of_append_right).1

namespace Reading

variable {form : Form} {r : Reading} {settled entries : List (String × String)}
  {left left' : List Field}

/-- Whatever the part, the entry that it amounts to is added to what has been met. -/
theorem StandsFor.part {part : Part} {entry : String × String} (h : r.StandsFor settled left false)
    (hform : form.IsProper) (hfills : part.Fills form left entry left') (hplain : part.IsPlain)
    (hnew : settled.lookup entry.1 = none) :
    ∃ r', part.args.foldlM (next form) r = .ok r' ∧
      r'.StandsFor (entry :: settled) left' false := by
  cases hfills with
  | option joined hfield hcheck =>
    cases joined with
    | true =>
      rw [Part.args, foldlM_singleton]
      exact h.next_joined hform hfield hnew hcheck
    | false => exact h.next_detached hform hfield hplain.2 hnew hcheck
  | flag hname =>
    rw [Part.args, foldlM_singleton]
    exact h.next_flag hform hname hnew
  | bare hcheck =>
    rw [Part.args, foldlM_singleton]
    exact h.next_bare hplain hnew hcheck

/-- Parts one after another add their entries, each on top of those before. -/
theorem StandsFor.parts {parts : List Part} (hform : form.IsProper)
    (hfills : Fills form left parts entries left') (hplain : ∀ part ∈ parts, part.IsPlain) :
    ∀ {r settled}, r.StandsFor settled left false →
      ((entries.reverse ++ settled).map Prod.fst).Nodup →
      ∃ r', (parts.flatMap Part.args).foldlM (next form) r = .ok r' ∧
        r'.StandsFor (entries.reverse ++ settled) left' false := by
  induction hfills with
  | nil =>
    intro r settled h _
    exact ⟨r, rfl, h⟩
  | @cons left left' left'' part parts entry entries hpart _ ih =>
    intro r settled h hnodup
    rw [List.reverse_cons, List.append_assoc, List.singleton_append] at hnodup ⊢
    obtain ⟨r', hr', h'⟩ := h.part hform hpart (hplain part List.mem_cons_self)
      (lookup_eq_none_of_nodup hnodup)
    obtain ⟨r'', hr'', h''⟩ := ih (fun p hp ↦ hplain p (List.mem_cons_of_mem part hp)) h' hnodup
    refine ⟨r'', ?_, h''⟩
    rw [List.flatMap_cons, List.foldlM_append, hr']
    exact hr''

/-- The values after `--` fill the positions one after another. -/
theorem StandsFor.after_dashes (form : Form) {texts : List String}
    (hchecks : List.Forall₂ Field.Accepts left texts) :
    ∀ {r settled}, r.StandsFor settled left true →
      ((((left.map Field.name).zip texts).reverse ++ settled).map Prod.fst).Nodup →
      ∃ r', texts.foldlM (next form) r = .ok r' ∧
        r'.StandsFor (((left.map Field.name).zip texts).reverse ++ settled) [] true := by
  induction hchecks with
  | nil =>
    intro r settled h _
    exact ⟨r, rfl, h⟩
  | @cons field text left texts hcheck _ ih =>
    intro r settled h hnodup
    rw [List.map_cons, List.zip_cons_cons, List.reverse_cons, List.append_assoc,
      List.singleton_append] at hnodup ⊢
    obtain ⟨r', hr', h'⟩ := h.next_after_dashes form (lookup_eq_none_of_nodup hnodup) hcheck
    obtain ⟨r'', hr'', h''⟩ := ih h' hnodup
    refine ⟨r'', ?_, h''⟩
    rw [List.foldlM_cons, hr']
    exact hr''

end Reading

/-! ## Reading a layout -/

namespace Layout

variable {form : Form} {l : Layout}

/-- What a layout says of the fields of a form. A flag has an empty value. -/
def entries (form : Form) (l : Layout) : List (String × String) :=
  (form.positions.map Field.name).zip l.values ++ l.options ++ l.flags.map (·, "")

/-- Whether a layout is one of the arguments that a form asks for. -/
structure Fits (l : Layout) (form : Form) : Prop where
  plain : ∀ part ∈ l.parts, part.IsPlain
  values : List.Forall₂ Field.Accepts form.positions l.values
  options : ∀ o ∈ l.options, ∃ field ∈ form.options, field.name = o.1 ∧ field.Accepts o.2
  flags : ∀ name ∈ l.flags, name ∈ form.flags
  nodup_options : (l.options.map Prod.fst).Nodup
  nodup_flags : l.flags.Nodup
  required : ∀ name ∈ form.required, name ∈ l.options.map Prod.fst

/-- Every position has its value. -/
theorem Fits.map_fst_entries (h : l.Fits form) :
    (l.entries form).map Prod.fst =
      form.positions.map Field.name ++ l.options.map Prod.fst ++ l.flags := by
  have hlength : (form.positions.map Field.name).length ≤ l.values.length := by
    rw [List.length_map]
    exact Nat.le_of_eq h.values.length_eq
  have hflags : (l.flags.map (·, "")).map Prod.fst = l.flags := by
    rw [List.map_map]
    exact List.map_id _
  rw [entries, List.map_append, List.map_append, List.map_fst_zip hlength, hflags]

theorem Fits.nodup_names (h : l.Fits form) (hform : form.IsProper) :
    ((l.entries form).map Prod.fst).Nodup := by
  have hoptions : l.options.map Prod.fst ⊆ form.options.map Field.name := by
    intro name hname
    obtain ⟨o, ho, rfl⟩ := List.mem_map.1 hname
    obtain ⟨field, hfield, hfst, -⟩ := h.options o ho
    exact List.mem_map.2 ⟨field, hfield, hfst⟩
  have hboth := hform.nodup.of_append_left
  have hdisjoint := List.disjoint_of_nodup_append hform.nodup
  rw [h.map_fst_entries]
  refine List.Nodup.append (List.Nodup.append hboth.of_append_left h.nodup_options ?_)
    h.nodup_flags ?_
  · exact List.disjoint_of_subset_right hoptions (List.disjoint_of_nodup_append hboth)
  · refine List.disjoint_of_subset_right h.flags (List.disjoint_of_subset_left ?_ hdisjoint)
    exact List.append_subset.2 ⟨List.subset_append_left _ _,
      List.Subset.trans hoptions (List.subset_append_right _ _)⟩

end Layout

/-- Parts that are what a form asks for amount to what they say, in another order. -/
theorem exists_fills {form : Form} {texts : List String} {parts : List Part} {left : List Field}
    (hvalues : List.Forall₂ Field.Accepts left (parts.filterMap Part.bare? ++ texts))
    (hoptions : ∀ o ∈ parts.filterMap Part.option?, ∃ field ∈ form.options,
      field.name = o.1 ∧ field.Accepts o.2)
    (hflags : ∀ name ∈ parts.filterMap Part.flag?, name ∈ form.flags) :
    ∃ entries left', Fills form left parts entries left' ∧ List.Forall₂ Field.Accepts left' texts ∧
      (entries ++ (left'.map Field.name).zip texts).Perm
        ((left.map Field.name).zip (parts.filterMap Part.bare? ++ texts) ++
          parts.filterMap Part.option? ++ (parts.filterMap Part.flag?).map (·, "")) := by
  -- A value by position takes the first position that is open, so the positions change on the way.
  induction parts generalizing left with
  | nil =>
    refine ⟨[], left, .nil, hvalues, ?_⟩
    simp
  | cons part parts ih =>
    cases part with
    | option name value joined =>
      simp only [List.filterMap_cons, Part.option?, Part.flag?, Part.bare?]
        at hvalues hoptions hflags ⊢
      obtain ⟨⟨field, hfield, rfl, hcheck⟩, hothers⟩ := List.forall_mem_cons.1 hoptions
      obtain ⟨entries, left', hfills, hrest, hperm⟩ := ih hvalues hothers hflags
      refine ⟨_, left', .cons (.option joined hfield hcheck) hfills, hrest, ?_⟩
      exact (hperm.cons (field.name, value)).trans (List.perm_middle.symm.append_right _)
    | flag name =>
      simp only [List.filterMap_cons, Part.option?, Part.flag?, Part.bare?]
        at hvalues hoptions hflags ⊢
      obtain ⟨hname, hothers⟩ := List.forall_mem_cons.1 hflags
      obtain ⟨entries, left', hfills, hrest, hperm⟩ := ih hvalues hoptions hothers
      refine ⟨_, left', .cons (.flag hname) hfills, hrest, ?_⟩
      exact (hperm.cons (name, "")).trans List.perm_middle.symm
    | bare text =>
      simp only [List.filterMap_cons, Part.option?, Part.flag?, Part.bare?]
        at hvalues hoptions hflags ⊢
      obtain ⟨field, left, hcheck, hothers, rfl⟩ := List.forall₂_cons_right_iff.1 hvalues
      obtain ⟨entries, left', hfills, hrest, hperm⟩ := ih hothers hoptions hflags
      exact ⟨_, left', .cons (.bare hcheck) hfills, hrest, hperm.cons (field.name, text)⟩

/-- With different names, what is looked up is what is there. -/
theorem lookup_eq_some_iff_mem {entries : List (String × String)}
    (h : (entries.map Prod.fst).Nodup) {name value : String} :
    entries.lookup name = some value ↔ (name, value) ∈ entries := by
  rw [List.lookup_eq_some_iff]
  constructor
  · rintro ⟨before, after, rfl, -⟩
    exact List.mem_append_right before List.mem_cons_self
  · intro hmem
    obtain ⟨before, after, rfl⟩ := List.append_of_mem hmem
    refine ⟨before, after, rfl, fun entry hentry ↦ bne_iff_ne.2 ?_⟩
    rintro rfl
    rw [List.map_append] at h
    exact List.disjoint_of_nodup_append h (List.mem_map_of_mem hentry)
      (List.mem_map.2 ⟨_, List.mem_cons_self, rfl⟩)

/-- Everything that a layout says is met, and nothing else. -/
theorem Layout.Fits.exists_standsFor {form : Form} {l : Layout} (h : l.Fits form)
    (hform : form.IsProper) :
    ∃ r settled onlyValues, l.args.foldlM (Reading.next form) { left := form.positions } = .ok r ∧
      r.StandsFor settled [] onlyValues ∧ settled.Perm (l.entries form) := by
  obtain ⟨entries, left', hfills, hrest, hperm⟩ := exists_fills h.values h.options h.flags
  replace hperm : (entries ++ (left'.map Field.name).zip (l.rest.getD [])).Perm (l.entries form) :=
    hperm
  have hnodup := (hperm.map Prod.fst).nodup_iff.2 (h.nodup_names hform)
  have hentries : ((entries.reverse ++ []).map Prod.fst).Nodup := by
    rw [List.append_nil, List.map_reverse, List.nodup_reverse]
    rw [List.map_append] at hnodup
    exact hnodup.of_append_left
  obtain ⟨r, hr, hstands⟩ := Reading.StandsFor.parts hform hfills h.plain
    (Reading.standsFor_settled [] form.positions false) hentries
  rw [List.append_nil] at hstands
  unfold args
  rw [List.foldlM_append, hr]
  cases hl : l.rest with
  | none =>
    rw [hl, Option.getD_none] at hrest hperm
    obtain rfl := List.forall₂_nil_right_iff.1 hrest
    refine ⟨r, entries.reverse, false, rfl, hstands, (List.reverse_perm entries).trans ?_⟩
    rwa [List.map_nil, List.zip_nil_right, List.append_nil] at hperm
  | some texts =>
    rw [hl, Option.getD_some] at hrest hperm hnodup
    obtain ⟨r', hr', hstands'⟩ := hstands.next_dashes form
    have hall : (entries ++ (left'.map Field.name).zip texts).reverse =
        ((left'.map Field.name).zip texts).reverse ++ entries.reverse := List.reverse_append
    obtain ⟨r'', hr'', hstands''⟩ := Reading.StandsFor.after_dashes form hrest hstands'
      (by rwa [← hall, List.map_reverse, List.nodup_reverse])
    rw [← hall] at hstands''
    refine ⟨r'', _, true, ?_, hstands'', (List.reverse_perm _).trans hperm⟩
    change (("--" :: texts).foldlM (Reading.next form) r) = _
    rw [List.foldlM_cons, hr']
    exact hr''

/-- Whatever the order and the way in which the arguments are written, what is read is what they
say. -/
theorem Form.read_layout {form : Form} {l : Layout} (hform : form.IsProper) (h : l.Fits form) :
    ∃ v, form.read l.args = .ok v ∧
      ∀ name value, v.get? name = some value ↔ (name, value) ∈ l.entries form := by
  obtain ⟨r, settled, onlyValues, hr, hstands, hperm⟩ := h.exists_standsFor hform
  have hnodup : (settled.map Prod.fst).Nodup :=
    (hperm.map Prod.fst).nodup_iff.2 (h.nodup_names hform)
  have hall : ∀ name ∈ form.positions.map Field.name ++ form.required,
      (settled.lookup name).isSome := by
    intro name hname
    have hmem : name ∈ settled.map Prod.fst := by
      rw [(hperm.map Prod.fst).mem_iff, h.map_fst_entries, List.append_assoc]
      obtain hname | hname := List.mem_append.1 hname
      · exact List.mem_append_left _ hname
      · exact List.mem_append_right _ (List.mem_append_left _ (h.required name hname))
    rw [Option.isSome_iff_ne_none]
    exact fun hnone ↦ lookup_eq_none_iff_notMem.1 hnone hmem
  refine ⟨⟨settled⟩, ?_, fun name value ↦ ?_⟩
  · unfold Form.read
    rw [hr]
    refine (hstands.settle_bind _).trans ?_
    exact if_pos (List.all_eq_true.2 hall)
  · rw [Values.get?, lookup_eq_some_iff_mem hnodup, hperm.mem_iff]

end TurtleGraphics.CommandLine
