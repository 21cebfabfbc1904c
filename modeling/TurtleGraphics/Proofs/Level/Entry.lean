import TurtleGraphics.Proofs.Catalog.Loading
import TurtleGraphics.Proofs.Level.Field

/-!
# The form of a level

The JSON values that are levels and goals, apart from how they are read: which fields there are,
what each asks for, and what is taken for one that is not there. A value is read exactly if it has
the form (`Level.ofJson_eq_ok_iff`), in which members may stand in any order. In a catalog nothing
at all depends on their order, since every object is put in order as it is read. Main statement:
`Level.ofJson_form`.
-/

namespace TurtleGraphics

/-! ## Goals -/

namespace Goal

open Level (Given IsNumber IsNumberOrNull Shows)

variable {g g' : Goal} {v : Json} {members members' : List (String × Json)} {items : List Json}

/-- The members of a goal. Without one of its own each part is as the goal that asks for nothing has
it. -/
structure Fields (members : List (String × Json)) (g : Goal) : Prop where
  known : ∀ m ∈ members, m.1 ∈ fields
  minPathLength : Given IsNumber "minPathLength" members (some 0) g.minPathLength
  exactTurns : Given IsNumberOrNull "exactTurns" members (some none) g.exactTurns
  minTurns : Given IsNumberOrNull "minTurns" members (some none) g.minTurns
  homeTolerance : Given IsNumberOrNull "homeTolerance" members (some none) g.homeTolerance

/-- A goal is an object with these members, or an array of the first few of them in order. -/
inductive Form : Json → Goal → Prop
  | object {members : List (String × Json)} {g : Goal} (h : Fields members g) :
    Form (.object members) g
  | array {items : List Json} {g : Goal} (hlength : items.length ≤ 4)
    (h : Fields (fields.zip items) g) : Form (.array items) g

theorem Fields.congr (h : Json.SameMembers members members') (hfields : Fields members g) :
    Fields members' g where
  known m hm := hfields.known m (h.mem_iff.2 hm)
  minPathLength := hfields.minPathLength.congr h
  exactTurns := hfields.exactTurns.congr h
  minTurns := hfields.minTurns.congr h
  homeTolerance := hfields.homeTolerance.congr h

/-- What setting a field of a goal does. -/
inductive Sets (g : Goal) : String → Json → Goal → Prop
  | minPathLength {v : Json} {x : Float} (h : IsNumber v x) :
    Sets g "minPathLength" v { g with minPathLength := x }
  | exactTurns {v : Json} {x : Option Float} (h : IsNumberOrNull v x) :
    Sets g "exactTurns" v { g with exactTurns := x }
  | minTurns {v : Json} {x : Option Float} (h : IsNumberOrNull v x) :
    Sets g "minTurns" v { g with minTurns := x }
  | homeTolerance {v : Json} {x : Option Float} (h : IsNumberOrNull v x) :
    Sets g "homeTolerance" v { g with homeTolerance := x }

theorem set_eq_ok_iff {name : String} : g.set name v = .ok g' ↔ g.Sets name v g' := by
  constructor
  · intro h
    unfold set at h
    split at h
    · obtain ⟨x, hx, rfl⟩ := (bind_return_eq_ok fun _ ↦ Level.numberOf_eq_ok_iff).1 h
      exact .minPathLength hx
    · obtain ⟨x, hx, rfl⟩ := (bind_return_eq_ok fun _ ↦ Level.numberOf?_eq_ok_iff).1 h
      exact .exactTurns hx
    · obtain ⟨x, hx, rfl⟩ := (bind_return_eq_ok fun _ ↦ Level.numberOf?_eq_ok_iff).1 h
      exact .minTurns hx
    · obtain ⟨x, hx, rfl⟩ := (bind_return_eq_ok fun _ ↦ Level.numberOf?_eq_ok_iff).1 h
      exact .homeTolerance hx
    · cases h
  · intro h
    cases h with
    | minPathLength h => exact (bind_return_eq_ok fun _ ↦ Level.numberOf_eq_ok_iff).2 ⟨_, h, rfl⟩
    | exactTurns h | minTurns h | homeTolerance h =>
      exact (bind_return_eq_ok fun _ ↦ Level.numberOf?_eq_ok_iff).2 ⟨_, h, rfl⟩

/-- Setting a field of a goal changes that field only. -/
theorem shows_fields :
    Shows set "minPathLength" IsNumber (some ·.minPathLength) ∧
      Shows set "exactTurns" IsNumberOrNull (some ·.exactTurns) ∧
      Shows set "minTurns" IsNumberOrNull (some ·.minTurns) ∧
      Shows set "homeTolerance" IsNumberOrNull (some ·.homeTolerance) := by
  refine ⟨⟨IsNumber.unique, fun h ↦ ?_⟩, ⟨IsNumberOrNull.unique, fun h ↦ ?_⟩,
    ⟨IsNumberOrNull.unique, fun h ↦ ?_⟩, ⟨IsNumberOrNull.unique, fun h ↦ ?_⟩⟩
  all_goals
    cases set_eq_ok_iff.1 h with
    | minPathLength hv | exactTurns hv | minTurns hv | homeTolerance hv =>
      first
      | exact .inl ⟨rfl, _, hv, rfl⟩
      | exact .inr ⟨by decide, rfl⟩

/-- Any member of a goal can be set. -/
theorem Fields.exists_set (h : Fields members g) {m : String × Json} (hm : m ∈ members)
    (s : Goal) : ∃ s', s.set m.1 m.2 = .ok s' := by
  obtain ⟨name, v⟩ := m
  have hname := h.known _ hm
  simp only [fields, List.mem_cons, List.not_mem_nil, or_false] at hname
  obtain rfl | rfl | rfl | rfl := hname
  · exact h.minPathLength.exists_of_mem hm fun hx ↦ ⟨_, set_eq_ok_iff.2 (.minPathLength hx)⟩
  · exact h.exactTurns.exists_of_mem hm fun hx ↦ ⟨_, set_eq_ok_iff.2 (.exactTurns hx)⟩
  · exact h.minTurns.exists_of_mem hm fun hx ↦ ⟨_, set_eq_ok_iff.2 (.minTurns hx)⟩
  · exact h.homeTolerance.exists_of_mem hm fun hx ↦ ⟨_, set_eq_ok_iff.2 (.homeTolerance hx)⟩

theorem Sets.mem_fields {name : String} (h : g.Sets name v g') : name ∈ fields := by
  cases h with
  | _ => decide

/-- Members are taken exactly if they are those of a goal. -/
theorem foldlM_set_eq_ok_iff :
    members.foldlM (fun g m ↦ g.set m.1 m.2) ({} : Goal) = .ok g ↔ Fields members g := by
  obtain ⟨hmin, hexact, hturns, hhome⟩ := shows_fields
  constructor
  · exact fun hrun ↦
      { known := fun m hm ↦ by
          obtain ⟨t, t', ht⟩ := exists_step_of_foldlM hrun hm
          exact (set_eq_ok_iff.1 ht).mem_fields
        minPathLength := (hmin.given_iff hrun).1 rfl
        exactTurns := (hexact.given_iff hrun).1 rfl
        minTurns := (hturns.given_iff hrun).1 rfl
        homeTolerance := (hhome.given_iff hrun).1 rfl }
  · intro h
    obtain ⟨g', hrun⟩ := exists_foldlM_eq_ok fun m hm ↦ h.exists_set hm
    rw [hrun]
    have hmin' := Option.some.inj ((hmin.given_iff hrun).2 h.minPathLength)
    have hexact' := Option.some.inj ((hexact.given_iff hrun).2 h.exactTurns)
    have hturns' := Option.some.inj ((hturns.given_iff hrun).2 h.minTurns)
    have hhome' := Option.some.inj ((hhome.given_iff hrun).2 h.homeTolerance)
    exact congrArg Except.ok (Goal.ext hmin' hexact' hturns' hhome')

theorem ofJson_eq_ok_iff : ofJson v = .ok g ↔ Form v g := by
  constructor
  · intro h
    unfold ofJson at h
    split at h
    · exact .object (foldlM_set_eq_ok_iff.1 h)
    · obtain ⟨g', hg', h⟩ := bind_eq_ok.1 h
      split at h
      · cases h
      · rename_i hlength
        cases return_eq_ok.1 h
        exact .array (Nat.le_of_not_lt hlength) (foldlM_set_eq_ok_iff.1 hg')
    · cases h
  · intro h
    cases h with
    | object h => exact foldlM_set_eq_ok_iff.2 h
    | array hlength h =>
      exact bind_eq_ok.2 ⟨g, foldlM_set_eq_ok_iff.2 h, if_neg (Nat.not_lt.2 hlength)⟩

theorem Form.unique (h : Form v g) (h' : Form v g') : g = g' :=
  eq_of_eq_ok_iff (fun _ ↦ ofJson_eq_ok_iff) h h'

end Goal

/-! ## Levels -/

namespace Level

variable {level : Level} {d d' : Draft} {v : Json} {members members' : List (String × Json)}
  {items : List Json}

/-- The members of a level. All but the hints have to be there. -/
structure Fields (members : List (String × Json)) (level : Level) : Prop where
  known : ∀ m ∈ members, m.1 ∈ fields
  id : Given IsId "id" members none level.id
  title : Given IsText "title" members none level.title
  description : Given IsText "description" members none level.description
  targetShape : Given IsText "targetShape" members none level.targetShape
  initialScript : Given IsText "initialScript" members none level.initialScript
  solutionScript : Given IsText "solutionScript" members none level.solutionScript
  hints : Given IsTexts "hints" members (some []) level.hints
  goal : Given Goal.Form "goal" members none level.goal

/-- A level is an object with these members, or an array of all of them in order. -/
inductive Form : Json → Level → Prop
  | object {members : List (String × Json)} {level : Level} (h : Fields members level) :
    Form (.object members) level
  | array {items : List Json} {level : Level} (hlength : items.length = 8)
    (h : Fields (fields.zip items) level) : Form (.array items) level

theorem Fields.congr (h : Json.SameMembers members members') (hfields : Fields members level) :
    Fields members' level where
  known m hm := hfields.known m (h.mem_iff.2 hm)
  id := hfields.id.congr h
  title := hfields.title.congr h
  description := hfields.description.congr h
  targetShape := hfields.targetShape.congr h
  initialScript := hfields.initialScript.congr h
  solutionScript := hfields.solutionScript.congr h
  hints := hfields.hints.congr h
  goal := hfields.goal.congr h

namespace Draft

/-- What setting a field of a level does. -/
inductive Sets (d : Draft) : String → Json → Draft → Prop
  | id {v : Json} {n : Nat} (h : IsId v n) : Sets d "id" v { d with id := some n }
  | title {v : Json} {s : String} (h : IsText v s) : Sets d "title" v { d with title := some s }
  | description {v : Json} {s : String} (h : IsText v s) :
    Sets d "description" v { d with description := some s }
  | targetShape {v : Json} {s : String} (h : IsText v s) :
    Sets d "targetShape" v { d with targetShape := some s }
  | initialScript {v : Json} {s : String} (h : IsText v s) :
    Sets d "initialScript" v { d with initialScript := some s }
  | solutionScript {v : Json} {s : String} (h : IsText v s) :
    Sets d "solutionScript" v { d with solutionScript := some s }
  | hints {v : Json} {texts : List String} (h : IsTexts v texts) :
    Sets d "hints" v { d with hints := some texts }
  | goal {v : Json} {g : Goal} (h : Goal.Form v g) : Sets d "goal" v { d with goal := some g }

theorem set_eq_ok_iff {name : String} : d.set name v = .ok d' ↔ d.Sets name v d' := by
  constructor
  · intro h
    unfold set at h
    split at h
    · obtain ⟨n, hn, rfl⟩ := (bind_return_eq_ok fun _ ↦ idOf_eq_ok_iff).1 h
      exact .id hn
    · obtain ⟨s, hs, rfl⟩ := (bind_return_eq_ok fun _ ↦ textOf_eq_ok_iff).1 h
      exact .title hs
    · obtain ⟨s, hs, rfl⟩ := (bind_return_eq_ok fun _ ↦ textOf_eq_ok_iff).1 h
      exact .description hs
    · obtain ⟨s, hs, rfl⟩ := (bind_return_eq_ok fun _ ↦ textOf_eq_ok_iff).1 h
      exact .targetShape hs
    · obtain ⟨s, hs, rfl⟩ := (bind_return_eq_ok fun _ ↦ textOf_eq_ok_iff).1 h
      exact .initialScript hs
    · obtain ⟨s, hs, rfl⟩ := (bind_return_eq_ok fun _ ↦ textOf_eq_ok_iff).1 h
      exact .solutionScript hs
    · obtain ⟨texts, htexts, rfl⟩ := (bind_return_eq_ok fun _ ↦ textsOf_eq_ok_iff).1 h
      exact .hints htexts
    · obtain ⟨g, hg, rfl⟩ := (bind_return_eq_ok fun _ ↦ Goal.ofJson_eq_ok_iff).1 h
      exact .goal hg
    · cases h
  · intro h
    cases h with
    | id h => exact (bind_return_eq_ok fun _ ↦ idOf_eq_ok_iff).2 ⟨_, h, rfl⟩
    | title h | description h | targetShape h | initialScript h | solutionScript h =>
      exact (bind_return_eq_ok fun _ ↦ textOf_eq_ok_iff).2 ⟨_, h, rfl⟩
    | hints h => exact (bind_return_eq_ok fun _ ↦ textsOf_eq_ok_iff).2 ⟨_, h, rfl⟩
    | goal h => exact (bind_return_eq_ok fun _ ↦ Goal.ofJson_eq_ok_iff).2 ⟨_, h, rfl⟩

theorem Sets.mem_fields {name : String} (h : d.Sets name v d') : name ∈ fields := by
  cases h with
  | _ => decide

/-- Setting a field of a level changes that field only. -/
theorem shows_fields :
    Shows set "id" IsId Draft.id ∧ Shows set "title" IsText Draft.title ∧
      Shows set "description" IsText Draft.description ∧
      Shows set "targetShape" IsText Draft.targetShape ∧
      Shows set "initialScript" IsText Draft.initialScript ∧
      Shows set "solutionScript" IsText Draft.solutionScript ∧
      Shows set "hints" IsTexts (fun d ↦ some (d.hints.getD [])) ∧
      Shows set "goal" Goal.Form Draft.goal := by
  refine ⟨⟨IsId.unique, fun h ↦ ?_⟩, ⟨IsText.unique, fun h ↦ ?_⟩, ⟨IsText.unique, fun h ↦ ?_⟩,
    ⟨IsText.unique, fun h ↦ ?_⟩, ⟨IsText.unique, fun h ↦ ?_⟩, ⟨IsText.unique, fun h ↦ ?_⟩,
    ⟨IsTexts.unique, fun h ↦ ?_⟩, ⟨Goal.Form.unique, fun h ↦ ?_⟩⟩
  all_goals
    cases set_eq_ok_iff.1 h with
    | id hv | title hv | description hv | targetShape hv | initialScript hv | solutionScript hv
    | hints hv | goal hv =>
      first
      | exact .inl ⟨rfl, _, hv, rfl⟩
      | exact .inr ⟨by decide, rfl⟩

/-- A draft has become a level if it has all fields but the hints. -/
theorem finish_eq_ok_iff {missing : Nat → String → Misfit} :
    d.finish missing = .ok level ↔ d.id = some level.id ∧ d.title = some level.title ∧
      d.description = some level.description ∧ d.targetShape = some level.targetShape ∧
      d.initialScript = some level.initialScript ∧ d.solutionScript = some level.solutionScript ∧
      some (d.hints.getD []) = some level.hints ∧ d.goal = some level.goal := by
  have hrequire {α : Type} {misfit : Misfit} {o : Option α} {a : α} :
      require misfit o = .ok a ↔ o = some a := by
    cases o with
    | none => exact ⟨nofun, nofun⟩
    | some b => rw [require, Except.ok.injEq, Option.some_inj]
  simp only [finish, bind_eq_ok, hrequire, return_eq_ok]
  constructor
  · rintro ⟨id, hid, title, htitle, description, hdescription, shape, hshape, initial, hinitial,
      solution, hsolution, goal, hgoal, rfl⟩
    exact ⟨hid, htitle, hdescription, hshape, hinitial, hsolution, rfl, hgoal⟩
  · rintro ⟨hid, htitle, hdescription, hshape, hinitial, hsolution, hhints, hgoal⟩
    refine ⟨_, hid, _, htitle, _, hdescription, _, hshape, _, hinitial, _, hsolution, _, hgoal, ?_⟩
    rw [Option.some.inj hhints]

end Draft

/-- Any member of a level can be set. -/
theorem Fields.exists_set (h : Fields members level) {m : String × Json} (hm : m ∈ members)
    (d : Draft) : ∃ d', d.set m.1 m.2 = .ok d' := by
  obtain ⟨name, v⟩ := m
  have hname := h.known _ hm
  simp only [fields, List.mem_cons, List.not_mem_nil, or_false] at hname
  obtain rfl | rfl | rfl | rfl | rfl | rfl | rfl | rfl := hname
  · exact h.id.exists_of_mem hm fun hv ↦ ⟨_, Draft.set_eq_ok_iff.2 (.id hv)⟩
  · exact h.title.exists_of_mem hm fun hv ↦ ⟨_, Draft.set_eq_ok_iff.2 (.title hv)⟩
  · exact h.description.exists_of_mem hm fun hv ↦ ⟨_, Draft.set_eq_ok_iff.2 (.description hv)⟩
  · exact h.targetShape.exists_of_mem hm fun hv ↦ ⟨_, Draft.set_eq_ok_iff.2 (.targetShape hv)⟩
  · exact h.initialScript.exists_of_mem hm fun hv ↦ ⟨_, Draft.set_eq_ok_iff.2 (.initialScript hv)⟩
  · exact h.solutionScript.exists_of_mem hm fun hv ↦ ⟨_, Draft.set_eq_ok_iff.2 (.solutionScript hv)⟩
  · exact h.hints.exists_of_mem hm fun hv ↦ ⟨_, Draft.set_eq_ok_iff.2 (.hints hv)⟩
  · exact h.goal.exists_of_mem hm fun hv ↦ ⟨_, Draft.set_eq_ok_iff.2 (.goal hv)⟩

/-- Members are taken, and make a level, exactly if they are those of it. -/
theorem foldlM_set_finish_eq_ok_iff {missing : Nat → String → Misfit} :
    (members.foldlM (fun d m ↦ d.set m.1 m.2) ({} : Draft) >>= (·.finish missing)) = .ok level ↔
      Fields members level := by
  obtain ⟨hid, htitle, hdescription, hshape, hinitial, hsolution, hhints, hgoal⟩ :=
    Draft.shows_fields
  rw [bind_eq_ok]
  constructor
  · rintro ⟨d, hrun, hfinish⟩
    obtain ⟨hid', htitle', hdescription', hshape', hinitial', hsolution', hhints', hgoal'⟩ :=
      Draft.finish_eq_ok_iff.1 hfinish
    exact
      { known := fun m hm ↦ by
          obtain ⟨t, t', ht⟩ := exists_step_of_foldlM hrun hm
          exact (Draft.set_eq_ok_iff.1 ht).mem_fields
        id := (hid.given_iff hrun).1 hid'
        title := (htitle.given_iff hrun).1 htitle'
        description := (hdescription.given_iff hrun).1 hdescription'
        targetShape := (hshape.given_iff hrun).1 hshape'
        initialScript := (hinitial.given_iff hrun).1 hinitial'
        solutionScript := (hsolution.given_iff hrun).1 hsolution'
        hints := (hhints.given_iff hrun).1 hhints'
        goal := (hgoal.given_iff hrun).1 hgoal' }
  · intro h
    obtain ⟨d, hrun⟩ := exists_foldlM_eq_ok fun m hm ↦ h.exists_set hm
    exact ⟨d, hrun, Draft.finish_eq_ok_iff.2
      ⟨(hid.given_iff hrun).2 h.id, (htitle.given_iff hrun).2 h.title,
        (hdescription.given_iff hrun).2 h.description, (hshape.given_iff hrun).2 h.targetShape,
        (hinitial.given_iff hrun).2 h.initialScript, (hsolution.given_iff hrun).2 h.solutionScript,
        (hhints.given_iff hrun).2 h.hints, (hgoal.given_iff hrun).2 h.goal⟩⟩

/-- Items that give all fields of a level. -/
theorem Fields.length_le (h : Fields (fields.zip items) level) : 8 ≤ items.length := by
  by_contra hshort
  have hnone : (fields.zip items).reverse.lookup "goal" = none := by
    refine List.lookup_eq_none_iff.2 fun m hm ↦ ?_
    have hname : m.1 ∈ fields.take items.length := by
      rw [← map_fst_zip_items]
      exact List.mem_map_of_mem (List.mem_reverse.1 hm)
    have hseven : m.1 ∈ fields.take 7 :=
      (List.take_prefix_take_left (by omega)).subset hname
    have hgoal : "goal" ∉ fields.take 7 := by decide
    exact bne_iff_ne.2 fun heq ↦ hgoal (heq ▸ hseven)
  have hgiven := h.goal.2
  rw [hnone] at hgiven
  cases hgiven

/-- A value is read as a level exactly if it has the form of one. -/
theorem ofJson_eq_ok_iff : ofJson v = .ok level ↔ Form v level := by
  constructor
  · intro h
    unfold ofJson at h
    split at h
    · exact .object (foldlM_set_finish_eq_ok_iff.1 h)
    · obtain ⟨d, hrun, h⟩ := bind_eq_ok.1 h
      obtain ⟨level', hfinish, h⟩ := bind_eq_ok.1 h
      split at h
      · cases h
      · rename_i hlength
        cases return_eq_ok.1 h
        have hfields := foldlM_set_finish_eq_ok_iff.1 (bind_eq_ok.2 ⟨d, hrun, hfinish⟩)
        exact .array (Nat.le_antisymm (Nat.le_of_not_lt hlength) hfields.length_le) hfields
    · cases h
  · intro h
    cases h with
    | object h => exact foldlM_set_finish_eq_ok_iff.2 h
    | array hlength h =>
      obtain ⟨d, hrun, hfinish⟩ := bind_eq_ok.1 (foldlM_set_finish_eq_ok_iff.2 h)
      exact bind_eq_ok.2 ⟨d, hrun, bind_eq_ok.2
        ⟨level, hfinish, if_neg (Nat.not_lt.2 (Nat.le_of_eq hlength))⟩⟩

end Level

/-! ## The order of members -/

section Order

variable {members members' : List (String × Json)} {items : List Json}

/-- A goal that is an array is also the object of the same members, in any order. -/
theorem Goal.object_eq_ok_iff_array {g : Goal} (h : members.Perm (Goal.fields.zip items))
    (hlength : items.length ≤ 4) :
    Goal.ofJson (.object members) = .ok g ↔ Goal.ofJson (.array items) = .ok g := by
  have hsame := Level.sameMembers_of_perm_zip (by decide) h
  rw [Goal.ofJson_eq_ok_iff, Goal.ofJson_eq_ok_iff]
  constructor
  · rintro (hfields | _)
    exact .array hlength (hfields.congr hsame.symm)
  · rintro (_ | ⟨_, hfields⟩)
    exact .object (hfields.congr hsame)

/-- A level that is an array is also the object of the same members, in any order. -/
theorem Level.object_eq_ok_iff_array {level : Level} (h : members.Perm (Level.fields.zip items))
    (hlength : items.length = 8) :
    Level.ofJson (.object members) = .ok level ↔ Level.ofJson (.array items) = .ok level := by
  have hsame := Level.sameMembers_of_perm_zip (by decide) h
  rw [Level.ofJson_eq_ok_iff, Level.ofJson_eq_ok_iff]
  constructor
  · rintro (hfields | _)
    exact .array hlength (hfields.congr hsame.symm)
  · rintro (_ | ⟨_, hfields⟩)
    exact .object (hfields.congr hsame)

theorem Level.object_eq_ok_iff_of_sameMembers {level : Level}
    (h : Json.SameMembers members members') :
    Level.ofJson (.object members) = .ok level ↔ Level.ofJson (.object members') = .ok level := by
  rw [Level.ofJson_eq_ok_iff, Level.ofJson_eq_ok_iff]
  constructor
  · rintro (hfields | _)
    exact .object (hfields.congr h)
  · rintro (hfields | _)
    exact .object (hfields.congr h.symm)

/-- The fault of a catalog in a JSON value is worded without the text. -/
theorem Catalog.Fault.message_eq_of_ofString {text text' : String} {root : Json}
    {fault : Catalog.Fault} (hroot : Json.ofString text = .ok root)
    (h : Catalog.ofString text = .error fault) : fault.message text = fault.message text' := by
  cases hentries : Catalog.entries? root with
  | none =>
    have hnone (entries) : root.get? "levels" ≠ some (.array entries) := fun hlevels ↦ by
      cases hentries.symm.trans (Catalog.entries?_eq_some_iff.2 hlevels)
    cases h.symm.trans (Catalog.ofString_of_no_levels hroot hnone)
    rfl
  | some entries =>
    rw [Catalog.ofString_of_levels hroot (Catalog.entries?_eq_some_iff.1 hentries)] at h
    obtain ⟨i, hfault, -⟩ := Catalog.ofEntries_eq_error_iff.1 h
    cases hfault with
    | malformed _ _ => rfl
    | duplicate _ _ _ _ _ _ => rfl

end Order

/-- What is a level. A value is read as one exactly if it has the form of one, which does not ask
for an order of the members; with its members as the items of an array it is the same level, and so
for a goal. The catalog in a text, and its fault if there is none, do not depend on the order in
which members stand in the text. -/
theorem Level.ofJson_form :
    (∀ v level, Level.ofJson v = .ok level ↔ Level.Form v level) ∧
    (∀ members members', Json.SameMembers members members' → ∀ level,
      Level.ofJson (.object members) = .ok level ↔ Level.ofJson (.object members') = .ok level) ∧
    (∀ members items, members.Perm (Level.fields.zip items) → items.length = 8 → ∀ level,
      Level.ofJson (.object members) = .ok level ↔ Level.ofJson (.array items) = .ok level) ∧
    (∀ members items, members.Perm (Goal.fields.zip items) → items.length ≤ 4 → ∀ g,
      Goal.ofJson (.object members) = .ok g ↔ Goal.ofJson (.array items) = .ok g) ∧
    ∀ text text' v w, Json.inOrder text = .ok v → Json.inOrder text' = .ok w →
      Json.Reordered v w → Catalog.ofString text = Catalog.ofString text' ∧
        ∀ fault, Catalog.ofString text = .error fault →
          fault.message text = fault.message text' := by
  refine ⟨fun v level ↦ Level.ofJson_eq_ok_iff,
    fun members members' h level ↦ Level.object_eq_ok_iff_of_sameMembers h,
    fun members items h hlength level ↦ Level.object_eq_ok_iff_array h hlength,
    fun members items h hlength g ↦ Goal.object_eq_ok_iff_array h hlength,
    fun text text' v w hv hw h ↦ ⟨?_, fun fault hfault ↦ ?_⟩⟩
  · rw [Catalog.ofString, Catalog.ofString, h.ofString_eq hv hw]
  · have hroot : Json.ofString text = .ok v.sorted := by
      rw [Json.ofString_eq_sorted, hv, Except.map]
    exact Catalog.Fault.message_eq_of_ofString hroot hfault

/-- A catalog of one level, whose goal has the two members. -/
def Catalog.withGoal (m m' : String) : String :=
  "\x7b\"levels\": [[7, \"\", \"\", \"\", \"\", \"\", [], \x7b" ++ m ++ ", " ++ m' ++ "\x7d]]\x7d"

/-- The items of a level with the given goal. -/
def Level.itemsWithGoal (goal : Json) : List Json :=
  [.number (.whole 7), .string "", .string "", .string "", .string "", .string "", .array [], goal]

/-- Members that were swapped: of goals in the text of a catalog, one that is well formed and one
that is not, and of a level. -/
theorem Level.ofJson_form_swapped :
    Catalog.ofString (Catalog.withGoal "\"minPathLength\": 4" "\"exactTurns\": null") =
      Catalog.ofString (Catalog.withGoal "\"exactTurns\": null" "\"minPathLength\": 4") ∧
    (∃ fault, Catalog.ofString (Catalog.withGoal "\"turns\": null" "\"size\": 4") = .error fault ∧
      fault.message (Catalog.withGoal "\"turns\": null" "\"size\": 4") =
        fault.message (Catalog.withGoal "\"size\": 4" "\"turns\": null")) ∧
    (∀ g, Goal.ofJson (.object [("exactTurns", .null), ("minPathLength", .number (.whole 4))]) =
      .ok g ↔ Goal.ofJson (.array [.number (.whole 4), .null]) = .ok g) ∧
    (∀ level, Level.ofJson (.object (Level.fields.zip (Level.itemsWithGoal (.array []))).reverse) =
      .ok level ↔ Level.ofJson (.array (Level.itemsWithGoal (.array []))) = .ok level) ∧
    ∀ level, Level.ofJson (.object (Level.fields.zip (Level.itemsWithGoal (.array []))).reverse) =
      .ok level ↔ Level.ofJson (.object (Level.fields.zip (Level.itemsWithGoal (.array [])))) =
      .ok level := by
  obtain ⟨-, hmembers, hlevel, hgoal, htexts⟩ := Level.ofJson_form
  let four (key : String) : String × Json := (key, .number (.whole 4))
  let null (key : String) : String × Json := (key, .null)
  let root (goal : List (String × Json)) : Json :=
    .object [("levels", .array [.array (Level.itemsWithGoal (.object goal))])]
  have hswap {m m' : String × Json} (h : ([m, m'].map Prod.fst).Nodup) :
      Json.Reordered (root [m, m']) (root [m', m]) :=
    .member [] [] "levels" (.item [] [] (.item [_, _, _, _, _, _, _] []
      (.members (.of_perm (.swap m' m []) h))))
  refine ⟨(htexts _ _ (root [four "minPathLength", null "exactTurns"])
      (root [null "exactTurns", four "minPathLength"]) (by decide +kernel) (by decide +kernel)
      (hswap (by decide))).1, ?_,
    hgoal _ _ (.swap (four "minPathLength") (null "exactTurns") []) (by decide),
    hlevel _ _ (List.reverse_perm _) rfl,
    hmembers _ _ (.of_perm (List.reverse_perm _) (by decide))⟩
  cases hread : Catalog.ofString (Catalog.withGoal "\"turns\": null" "\"size\": 4") with
  | error fault =>
    have hmessage := (htexts _ (Catalog.withGoal "\"size\": 4" "\"turns\": null")
      (root [null "turns", four "size"]) (root [four "size", null "turns"]) (by decide +kernel)
      (by decide +kernel) (hswap (by decide))).2 fault hread
    exact ⟨fault, rfl, hmessage⟩
  | ok catalog =>
    have hrefused : (Catalog.ofString
        (Catalog.withGoal "\"turns\": null" "\"size\": 4")).toBool = false := by
      decide +kernel
    rw [hread] at hrefused
    cases hrefused

end TurtleGraphics
