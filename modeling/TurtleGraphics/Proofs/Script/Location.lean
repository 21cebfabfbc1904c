import TurtleGraphics.Proofs.Script.Stream

/-!
# Where a fault is found

The first fault of a stream belongs to a line of the script. That line stands at top level, or in
the body of a loop that stands there; in a body it is either a line that is at fault by itself, met
in the first repetition, or the first line that opens a loop, found before the body is followed.
The commands of the stream are those of the lines that were walked until then. Main statement:
`Line.exists_foundAt`.
-/

namespace TurtleGraphics

namespace Event

/-- Events are commands only, or commands up to a first fault. -/
theorem exists_eq_map_command (es : List Event) :
    (∃ cs : List Command, es = cs.map command) ∨
      ∃ (cs : List Command) (f : Fault) (tail : List Event),
        es = cs.map command ++ fault f :: tail := by
  induction es with
  | nil => exact .inl ⟨[], rfl⟩
  | cons e es ih =>
    cases e with
    | fault f => exact .inr ⟨[], f, es, rfl⟩
    | command c =>
      rcases ih with ⟨cs, rfl⟩ | ⟨cs, f, tail, rfl⟩
      · exact .inl ⟨c :: cs, rfl⟩
      · exact .inr ⟨c :: cs, f, tail, rfl⟩

/-- Repeated events are commands only, or they are cut at the first fault of the first time. -/
theorem upToFault_replicate (es : List Event) (n : Nat) :
    (∃ cs : List Command, ∀ rest,
      upToFault ((List.replicate n es).flatten ++ rest) = cs.map command ++ upToFault rest) ∨
    ∃ (cs : List Command) (f : Fault) (tail : List Event),
      es = cs.map command ++ fault f :: tail ∧
        ∀ rest, upToFault ((List.replicate n es).flatten ++ rest) =
          cs.map command ++ [fault f] := by
  rcases exists_eq_map_command es with ⟨cs, rfl⟩ | ⟨cs, f, tail, rfl⟩
  · refine .inl ⟨(List.replicate n cs).flatten, fun rest ↦ ?_⟩
    rw [← upToFault_map_command_append, List.map_flatten, List.map_replicate]
  · cases n with
    | zero => exact .inl ⟨[], fun rest ↦ rfl⟩
    | succ n =>
      refine .inr ⟨cs, f, tail, rfl, fun rest ↦ ?_⟩
      rw [List.replicate_succ, List.flatten_cons, List.append_assoc, List.append_assoc,
        upToFault_map_command_append]
      rfl

end Event

namespace Line

/-! ## Lines and their faults -/

theorem event?_eq_fault_iff {l : Line} {f : Fault} :
    l.event? = some (.fault f) ↔ l.statement = .error f := by
  rw [event?]
  cases l.statement with
  | error f' => simp
  | ok s =>
    cases s with
    | command c => simp
    | header h => simp
    | blank => simp
    | other => simp

/-- A fault among the events of lines is that of one of them. -/
theorem exists_of_filterMap_event? {lines : List Line} {cs : List Command} {f : Fault}
    {tail : List Event} (h : lines.filterMap event? = cs.map .command ++ .fault f :: tail) :
    ∃ inner l after, lines = inner ++ l :: after ∧ l.statement = .error f ∧
      inner.filterMap event? = cs.map .command := by
  obtain ⟨inner, rest, rfl, hinner, hrest⟩ := List.filterMap_eq_append_iff.1 h
  obtain ⟨skipped, l, after, rfl, hskipped, hl, -⟩ := List.filterMap_eq_cons_iff.1 hrest
  refine ⟨inner ++ skipped, l, after, (List.append_assoc ..).symm, event?_eq_fault_iff.1 hl, ?_⟩
  rw [List.filterMap_append, hinner, List.filterMap_eq_nil_iff.2 hskipped, List.append_nil]

theorem nested?_eq_none_iff {block : List Line} :
    nested? block = none ↔ ∀ l ∈ block, l.opensLoop = false := by
  simp [nested?]

/-- The loop that is found in a body is the first one there. -/
theorem exists_of_nested? {block : List Line} {f : Fault} (h : nested? block = some f) :
    ∃ inner l after, block = inner ++ l :: after ∧ l.opensLoop ∧
      (∀ x ∈ inner, x.opensLoop = false) ∧ f = .nestedLoop l.number := by
  obtain ⟨l, hl, rfl⟩ := Option.map_eq_some_iff.1 h
  obtain ⟨hopens, inner, after, rfl, hinner⟩ := List.find?_eq_some_iff_append.1 hl
  exact ⟨inner, l, after, rfl, hopens, fun x hx ↦ by simpa using hinner x hx, rfl⟩

/-! ## Levels -/

/-- Whether `l` stands in the body of the loop that `head` opens, with `inner` between them. -/
structure Encloses (head : Line) (inner : List Line) (l : Line) : Prop where
  opens : ∃ header, head.statement = .ok (.header header)
  inBody : ∀ x ∈ inner ++ [l], x.inBody

/-- Whether `l` stands at top level behind the lines `before`: in the body of no loop. -/
def AtTop (before : List Line) (l : Line) : Prop :=
  ∀ outer head inner, before = outer ++ head :: inner → ¬ Encloses head inner l

theorem atTop_nil (l : Line) : AtTop [] l := by
  intro outer head inner h
  simp at h

/-- A line that opens no loop changes no level. -/
theorem AtTop.cons {before : List Line} {l l₀ : Line} (h : AtTop before l)
    (hl₀ : Section.header? l₀ = none) : AtTop (l₀ :: before) l := by
  intro outer head inner hbefore hencloses
  cases outer with
  | nil =>
    obtain ⟨rfl, rfl⟩ := List.cons.inj hbefore
    obtain ⟨header, hheader⟩ := hencloses.opens
    rw [Section.header?_eq_some_iff.2 hheader] at hl₀
    cases hl₀
  | cons x outer =>
    obtain ⟨rfl, htail⟩ := List.cons.inj hbefore
    exact h outer head inner htail hencloses

/-- A line outside the bodies of loops changes no level behind it. -/
theorem AtTop.append {before : List Line} {l x : Line} (h : AtTop before l) (block : List Line)
    (hx : x ∈ (before ++ [l]).head?) (hbody : x.inBody = false) : AtTop (block ++ before) l := by
  intro outer head inner heq hencloses
  rcases List.append_eq_append_iff.1 heq with ⟨outer', -, hbefore⟩ | ⟨block', -, hbefore⟩
  · exact h outer' head inner hbefore hencloses
  · cases block' with
    | nil => exact h [] head inner hbefore.symm hencloses
    | cons y block' =>
      -- The loop would have to go on across `x`.
      obtain ⟨rfl, rfl⟩ := List.cons.inj hbefore
      have hmem : x ∈ block' ++ before ++ [l] := by
        rw [List.append_assoc]
        exact List.mem_append_right _ (List.mem_of_mem_head? hx)
      rw [hencloses.inBody x hmem] at hbody
      cases hbody

/-! ## The walk up to a fault -/

/-- The walk comes to the line `l` at top level, after the commands `cs` of the lines `before`. -/
structure Reached (cs : List Command) (before : List Line) (l : Line) : Prop where
  atTop : AtTop before l
  stream : stream before = cs.map .command

/-- The walk comes to the line `l` after the commands `cs` of the lines before it and finds the
fault `f` there. -/
inductive FoundAt (f : Fault) : List Command → List Line → Line → Prop
  | top {cs : List Command} {before : List Line} {l : Line} (h : Reached cs before l)
      (hl : l.statement = .error f) : FoundAt f cs before l
  | inner {cs ds : List Command} {outer inner : List Line} {head l : Line}
      (h : Reached cs outer head) (hencloses : Encloses head inner l)
      (hloops : ∀ x ∈ inner, x.opensLoop = false) (hl : l.statement = .error f)
      (hinner : inner.filterMap event? = ds.map .command) :
      FoundAt f (cs ++ ds) (outer ++ head :: inner) l
  | nested {cs : List Command} {outer inner : List Line} {head l : Line}
      (h : Reached cs outer head) (hencloses : Encloses head inner l)
      (hloops : ∀ x ∈ inner, x.opensLoop = false) (hl : l.opensLoop)
      (hf : f = .nestedLoop l.number) : FoundAt f cs (outer ++ head :: inner) l

/-- What is found behind some lines is found behind more of them. -/
theorem FoundAt.append {f : Fault} {cs ds : List Command} {before : List Line} {l : Line}
    (h : FoundAt f cs before l) (block : List Line)
    (hblock : ∀ cs xs y, (xs ++ [y]).head? = (before ++ [l]).head? → Reached cs xs y →
      Reached (ds ++ cs) (block ++ xs) y) : FoundAt f (ds ++ cs) (block ++ before) l := by
  cases h with
  | top h hl => exact .top (hblock _ _ _ rfl h) hl
  | @inner cs ds' outer inner head l h hencloses hloops hl hinner =>
    rw [← List.append_assoc, ← List.append_assoc]
    refine .inner (hblock _ _ _ ?_ h) hencloses hloops hl hinner
    cases outer with
    | nil => rfl
    | cons => rfl
  | @nested cs outer inner head l h hencloses hloops hl hf =>
    rw [← List.append_assoc]
    refine .nested (hblock _ _ _ ?_ h) hencloses hloops hl hf
    cases outer with
    | nil => rfl
    | cons => rfl

/-- Behind a line that is no header the walk goes on at top level. -/
theorem FoundAt.cons {f : Fault} {cs : List Command} {before : List Line} {l l₀ : Line}
    (h : FoundAt f cs before l) (ds : List Command) (hl₀ : Section.header? l₀ = none)
    (hds : l₀.event?.toList = ds.map .command) : FoundAt f (ds ++ cs) (l₀ :: before) l := by
  refine h.append [l₀] fun cs xs y _ hreached ↦ ⟨hreached.atTop.cons hl₀, ?_⟩
  rw [List.singleton_append, stream_cons_of_header?_eq_none hl₀, hds,
    Event.upToFault_map_command_append, upToFault_stream, hreached.stream, List.map_append]

theorem inBody_of_mem_body {rest : List Line} {l : Line} (h : l ∈ body rest) : l.inBody :=
  List.all_eq_true.1 List.all_takeWhile l h

/-- Behind a loop without a fault the walk goes on at top level. -/
theorem FoundAt.loop {f : Fault} {cs ds : List Command} {before rest after : List Line}
    {l head : Line} {header : LoopHeader} (h : FoundAt f cs before l)
    (hhead : Section.header? head = some header) (hafter : afterBody rest = before ++ l :: after)
    (hloops : ∀ x ∈ body rest, x.opensLoop = false)
    (hds : ∀ tail, Event.upToFault
      ((List.replicate header.count ((body rest).filterMap event?)).flatten ++ tail) =
        ds.map .command ++ Event.upToFault tail) :
    FoundAt f (ds ++ cs) (head :: body rest ++ before) l := by
  refine h.append _ fun cs xs y hxs hreached ↦ ?_
  -- Behind the loop comes the first line that is not in its body.
  obtain ⟨x, hx⟩ : ∃ x, x ∈ (xs ++ [y]).head? := by
    cases xs with
    | nil => exact ⟨y, rfl⟩
    | cons x xs => exact ⟨x, rfl⟩
  have hbody : x.inBody = false := by
    have hhead : (afterBody rest).head? = some x := by
      rw [hafter, ← hx, hxs]
      cases before with
      | nil => rfl
      | cons => rfl
    have hnot := List.head?_dropWhile_not Line.inBody rest
    rw [← afterBody, hhead] at hnot
    exact hnot
  have hxs : body xs = [] := by
    cases xs with
    | nil => rfl
    | cons x' xs =>
      obtain rfl : x' = x := by simpa using hx
      exact List.takeWhile_cons_of_neg (by simp [hbody])
  refine ⟨hreached.atTop.append _ hx hbody, ?_⟩
  rw [stream_loop hhead (fun _ ↦ inBody_of_mem_body) hloops hxs, hds, upToFault_stream,
    hreached.stream, List.map_append]

/-- A line in the body of a loop is a line behind its header. -/
theorem cons_eq_of_body {rest inner after : List Line} {l : Line} (head : Line)
    (h : body rest = inner ++ l :: after) :
    head :: rest = head :: inner ++ l :: (after ++ afterBody rest) := by
  have hrest := body_append_afterBody rest
  rw [h] at hrest
  exact congrArg (head :: ·) (by simpa using hrest.symm)

theorem encloses_of_body {head l : Line} {header : LoopHeader} {rest inner after : List Line}
    (hhead : Section.header? head = some header) (h : body rest = inner ++ l :: after) :
    Encloses head inner l := by
  refine ⟨⟨header, Section.header?_eq_some_iff.1 hhead⟩, fun x hx ↦ ?_⟩
  have hmem : x ∈ body rest := by
    rw [h, List.append_cons]
    exact List.mem_append_left _ hx
  exact inBody_of_mem_body hmem

/-- The first fault of a stream is found on one of the lines, behind the commands of the stream. -/
theorem exists_foundAt {lines : List Line} {f : Fault}
    (h : Event.firstFault? (stream lines) = some f) :
    ∃ before l after, lines = before ++ l :: after ∧
      FoundAt f (Event.commands (stream lines)) before l := by
  fun_induction sections lines with
  | case1 => simp at h
  | case2 l₀ rest hl₀ ih =>
    rw [stream_cons_of_header?_eq_none hl₀] at h ⊢
    cases he : l₀.event? with
    | none =>
      simp only [he, Option.toList_none, List.nil_append, upToFault_stream] at h ⊢
      obtain ⟨before, l, after, rfl, hfound⟩ := ih h
      exact ⟨l₀ :: before, l, after, rfl, hfound.cons [] hl₀ (by rw [he]; rfl)⟩
    | some e =>
      rw [he] at h
      cases e with
      | fault f' =>
        obtain rfl : f' = f := by simpa using h
        exact ⟨[], l₀, rest, rfl, .top ⟨atTop_nil l₀, stream_nil⟩ (event?_eq_fault_iff.1 he)⟩
      | command c =>
        simp only [Option.toList_some, List.singleton_append, Event.upToFault_command,
          Event.firstFault?_command, Event.commands_command, upToFault_stream] at h ⊢
        obtain ⟨before, l, after, rfl, hfound⟩ := ih h
        exact ⟨l₀ :: before, l, after, rfl, hfound.cons [c] hl₀ (by rw [he]; rfl)⟩
  | case3 l₀ rest header hl₀ ih =>
    have hreached : Reached [] [] l₀ := ⟨atTop_nil l₀, stream_nil⟩
    rw [stream_cons_of_header?_eq_some hl₀, Section.events] at h ⊢
    cases hn : nested? (body rest) with
    | some f' =>
      rw [hn] at h
      obtain rfl : f' = f := by simpa using h
      obtain ⟨inner, l, after, hbody, hopens, hloops, hf⟩ := exists_of_nested? hn
      exact ⟨l₀ :: inner, l, after ++ afterBody rest, cons_eq_of_body l₀ hbody,
        .nested hreached (encloses_of_body hl₀ hbody) hloops hopens hf⟩
    | none =>
      rw [hn] at h
      have hloops := nested?_eq_none_iff.1 hn
      rcases Event.upToFault_replicate ((body rest).filterMap event?) header.count with
        ⟨ds, hds⟩ | ⟨ds, f', tail, hes, hds⟩
      · simp only [hds, upToFault_stream, Event.firstFault?_map_command_append,
          Event.commands_map_command_append] at h ⊢
        obtain ⟨before, l, after, hafter, hfound⟩ := ih h
        refine ⟨l₀ :: body rest ++ before, l, after, ?_, hfound.loop hl₀ hafter hloops hds⟩
        rw [List.append_assoc, ← hafter, List.cons_append, body_append_afterBody]
      · simp only [hds, Event.firstFault?_map_command_append,
          Event.commands_map_command_append] at h ⊢
        obtain rfl : f' = f := by simpa using h
        obtain ⟨inner, l, after, hbody, hl, hinner⟩ := exists_of_filterMap_event? hes
        have hinnerLoops : ∀ x ∈ inner, x.opensLoop = false := fun x hx ↦
          hloops x (hbody ▸ List.mem_append_left _ hx)
        have hfound := FoundAt.inner hreached (encloses_of_body hl₀ hbody) hinnerLoops hl hinner
        exact ⟨l₀ :: inner, l, after ++ afterBody rest, cons_eq_of_body l₀ hbody,
          by simpa using hfound⟩

/-! ## No other loop

Which loop a line stands in the body of is settled by the lines: a loop inside the body of another
one is a fault, and the walk never goes past it. -/

theorem Encloses.opensLoop {head l : Line} {inner : List Line} (h : Encloses head inner l) :
    head.opensLoop := by
  obtain ⟨header, hheader⟩ := h.opens
  exact Statement.opensLoop_of_ofTokens hheader

theorem Encloses.eq_of_atTop {outer₀ inner₀ outer inner : List Line} {head₀ head l : Line}
    (h : Encloses head inner l) (heq : outer₀ ++ head₀ :: inner₀ = outer ++ head :: inner)
    (h₀ : Encloses head₀ inner₀ l) (hloops : ∀ x ∈ inner₀, x.opensLoop = false)
    (htop : AtTop outer₀ head₀) : outer₀ = outer ∧ head₀ = head ∧ inner₀ = inner := by
  rcases List.append_eq_append_iff.1 heq with ⟨between, houter, hinner⟩ | ⟨between, houter, hinner⟩
  · cases between with
    | nil =>
      obtain ⟨rfl, rfl⟩ := List.cons.inj hinner
      exact ⟨by simpa using houter.symm, rfl, rfl⟩
    | cons x between =>
      -- `head` would open a loop in the body of the one that `head₀` opens.
      obtain ⟨rfl, rfl⟩ := List.cons.inj hinner
      have hhead := hloops head (List.mem_append_right _ List.mem_cons_self)
      rw [h.opensLoop] at hhead
      cases hhead
  · cases between with
    | nil =>
      obtain ⟨rfl, rfl⟩ := List.cons.inj hinner
      exact ⟨by simpa using houter, rfl, rfl⟩
    | cons x between =>
      -- `head₀` would stand in the body of the loop that `head` opens.
      obtain ⟨rfl, rfl⟩ := List.cons.inj hinner
      refine absurd ⟨h.opens, fun x hx ↦ h.inBody x ?_⟩ (htop outer head between houter)
      have hx' : x ∈ between ++ head₀ :: inner₀ := by
        rw [List.append_cons]
        exact List.mem_append_left _ hx
      exact List.mem_append_left _ hx'

theorem FoundAt.stream_of_atTop {f : Fault} {cs : List Command} {before : List Line} {l : Line}
    (h : FoundAt f cs before l) (htop : AtTop before l) : stream before = cs.map .command := by
  cases h with
  | top h => exact h.stream
  | inner _ hencloses => exact absurd hencloses (htop _ _ _ rfl)
  | nested _ hencloses => exact absurd hencloses (htop _ _ _ rfl)

theorem FoundAt.stream_of_encloses {f : Fault} {cs : List Command}
    {outer inner : List Line} {head l : Line} (h : FoundAt f cs (outer ++ head :: inner) l)
    (hencloses : Encloses head inner l) :
    (f = .nestedLoop l.number ∧ stream outer = cs.map .command) ∨
      (l.statement = .error f ∧ (∀ x ∈ inner, x.opensLoop = false) ∧
        ∃ ds es : List Command, cs = ds ++ es ∧ stream outer = ds.map .command ∧
          inner.filterMap event? = es.map .command) := by
  generalize hbefore : outer ++ head :: inner = before at h
  cases h with
  | top h => exact absurd hencloses (h.atTop _ _ _ hbefore.symm)
  | inner h₀ hencloses₀ hloops hl hinner =>
    obtain ⟨rfl, rfl, rfl⟩ := hencloses.eq_of_atTop hbefore.symm hencloses₀ hloops h₀.atTop
    exact .inr ⟨hl, hloops, _, _, rfl, h₀.stream, hinner⟩
  | nested h₀ hencloses₀ hloops hl hf =>
    obtain ⟨rfl, rfl, rfl⟩ := hencloses.eq_of_atTop hbefore.symm hencloses₀ hloops h₀.atTop
    exact .inl ⟨hf, h₀.stream⟩

end Line

end TurtleGraphics
