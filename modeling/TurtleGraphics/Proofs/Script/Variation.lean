import Mathlib.Data.List.Forall2
import TurtleGraphics.Proofs.Script.Numbering
import TurtleGraphics.Proofs.Token.Lexemes

/-!
# Scripts with varied lines

Two scripts whose lines agree in what the sections are made by, which is where a loop begins, where
its body ends and whether there is a loop in it, fall into the same sections. So a relation on lists
of events that holds line by line holds of the events of the whole scripts, if it is kept when lists
are put together. Main statement: `Line.events_varied`.
-/

namespace TurtleGraphics

/-- A relation on lists of events that is kept when lists are put together. -/
structure Event.IsCongruence (T : List Event → List Event → Prop) : Prop where
  refl (es : List Event) : T es es
  append {es es' fs fs' : List Event} (he : T es es') (hf : T fs fs') : T (es ++ fs) (es' ++ fs')

namespace Event.IsCongruence

variable {T : List Event → List Event → Prop}

/-- What is repeated is related if it is repeated equally often. -/
theorem flatten_replicate (hT : IsCongruence T) {es es' : List Event} (h : T es es') (n : Nat) :
    T (List.replicate n es).flatten (List.replicate n es').flatten := by
  induction n with
  | zero => exact hT.refl []
  | succ n ih =>
    rw [List.replicate_succ, List.replicate_succ, List.flatten_cons, List.flatten_cons]
    exact hT.append h ih

end Event.IsCongruence

namespace Line

/-- Whether the lines stand in the same way in their scripts and make related things happen. -/
structure Varies (T : List Event → List Event → Prop) (l l' : Line) : Prop where
  number : l.number = l'.number
  inBody : l.inBody = l'.inBody
  opensLoop : l.opensLoop = l'.opensLoop
  count : (Section.header? l).map (·.count) = (Section.header? l').map (·.count)
  events : T l.event?.toList l'.event?.toList

/-! ## What the tokens of a line decide -/

theorem ofString_text_ofChars (n : Nat) (cs : List Char) :
    Tokens.ofString (ofChars n cs).text = Tokens.ofChars cs := by
  rw [Tokens.ofString, ofChars, String.toList_ofList, Tokens.ofChars_trim]

/-- What a line says depends on its tokens, with the blanks around them or not. -/
theorem statement_ofChars (n : Nat) (cs : List Char) :
    (ofChars n cs).statement = Statement.ofTokens n (Tokens.ofChars cs) := by
  rw [statement, Statement.ofString, ofString_text_ofChars]
  rfl

/-- The number of a line is for its fault only. -/
theorem statement_ofChars_of_ok {m : Nat} {cs : List Char} {s : Statement}
    (h : (ofChars m cs).statement = .ok s) (n : Nat) : (ofChars n cs).statement = .ok s := by
  have hnumber : ofChars n cs = (ofChars m cs).mapNumber fun _ ↦ n := rfl
  rw [hnumber, statement_mapNumber, h]
  rfl

theorem opensLoop_ofChars (n : Nat) (cs : List Char) :
    (ofChars n cs).opensLoop = (Tokens.ofChars cs).opensLoop := by
  rw [opensLoop, ofString_text_ofChars]

/-- A line with a text goes on a body if it is indented. -/
theorem inBody_eq {l : Line} (h : l.text ≠ "") : l.inBody = decide (0 < l.indent) := by
  rw [inBody, decide_eq_false h, Bool.false_or]

theorem text_ne_of_command {l : Line} {c : Command} (h : l.statement = .ok (.command c)) :
    l.text ≠ "" := by
  intro htext
  rw [statement_eq_blank htext] at h
  cases h

theorem text_ne_of_header {l : Line} {header : LoopHeader}
    (h : l.statement = .ok (.header header)) : l.text ≠ "" := by
  intro htext
  rw [statement_eq_blank htext] at h
  cases h

theorem event?_of_command {l : Line} {c : Command} (h : l.statement = .ok (.command c)) :
    l.event? = some (.command c) := by
  rw [event?, h]

theorem header?_of_command {l : Line} {c : Command} (h : l.statement = .ok (.command c)) :
    Section.header? l = none := by
  rw [Section.header?, h]

theorem event?_of_header {l : Line} {header : LoopHeader}
    (h : l.statement = .ok (.header header)) : l.event? = none := by
  rw [event?, h]

/-! ## What a relation of lines keeps -/

section Forall₂

variable {R : Line → Line → Prop} {lines lines' : List Line}

/-- Bodies end at the same place if no line is related to one that goes on a body differently. -/
theorem forall₂_body (hR : ∀ l l', R l l' → l.inBody = l'.inBody)
    (h : List.Forall₂ R lines lines') :
    List.Forall₂ R (body lines) (body lines') ∧
      List.Forall₂ R (afterBody lines) (afterBody lines') := by
  induction h with
  | nil => exact ⟨.nil, .nil⟩
  | @cons l l' rest rest' hl hrest ih =>
    unfold body afterBody at ih ⊢
    rw [List.takeWhile_cons, List.takeWhile_cons, List.dropWhile_cons, List.dropWhile_cons,
      ← hR l l' hl]
    split
    · exact ⟨.cons hl ih.1, ih.2⟩
    · exact ⟨.nil, .cons hl hrest⟩

/-- A loop in a body is found on the same line. -/
theorem nested?_congr (hR : ∀ l l', R l l' → l.opensLoop = l'.opensLoop)
    (hnumber : ∀ l l', R l l' → l.number = l'.number) (h : List.Forall₂ R lines lines') :
    nested? lines = nested? lines' := by
  induction h with
  | nil => rfl
  | @cons l l' rest rest' hl _ ih =>
    unfold nested? at ih ⊢
    rw [List.find?_cons, List.find?_cons, ← hR l l' hl]
    split
    · rw [Option.map_some, Option.map_some, hnumber l l' hl]
    · exact ih

end Forall₂

/-! ## Related events -/

variable {T : List Event → List Event → Prop} {lines lines' : List Line}

theorem filterMap_event?_varied (hT : Event.IsCongruence T)
    (h : List.Forall₂ (Varies T) lines lines') :
    T (lines.filterMap event?) (lines'.filterMap event?) := by
  induction h with
  | nil => exact hT.refl []
  | @cons l l' rest rest' hl _ ih =>
    have hcons (l : Line) (rest : List Line) :
        (l :: rest).filterMap event? = l.event?.toList ++ rest.filterMap event? := by
      rw [List.filterMap_cons]
      cases l.event? with
      | none => rfl
      | some e => rfl
    rw [hcons, hcons]
    exact hT.append hl.events ih

theorem events_loop_varied (hT : Event.IsCongruence T) {l l' : Line} {header header' : LoopHeader}
    (hcount : header.count = header'.count) (h : List.Forall₂ (Varies T) lines lines') :
    T (Section.loop l header lines).events (Section.loop l' header' lines').events := by
  have hnested : nested? lines = nested? lines' :=
    nested?_congr (fun _ _ hl ↦ hl.opensLoop) (fun _ _ hl ↦ hl.number) h
  simp only [Section.events, ← hnested, ← hcount]
  cases nested? lines with
  | some fault => exact hT.refl _
  | none => exact hT.flatten_replicate (filterMap_event?_varied hT h) header.count

/-- Scripts whose lines make related things happen do so as a whole. -/
theorem events_varied (hT : Event.IsCongruence T) (h : List.Forall₂ (Varies T) lines lines') :
    T ((sections lines).flatMap Section.events) ((sections lines').flatMap Section.events) := by
  fun_induction sections lines generalizing lines' with
  | case1 =>
    cases h
    rw [sections_nil]
    exact hT.refl []
  | case2 l rest hl ih =>
    cases h with
    | @cons _ l' _ rest' hvaries hrest =>
      have hl' : Section.header? l' = none := by
        have hcount := hvaries.count
        rw [hl, Option.map_none] at hcount
        exact Option.map_eq_none_iff.1 hcount.symm
      rw [sections_cons, hl', List.flatMap_cons, List.flatMap_cons]
      exact hT.append hvaries.events (ih hrest)
  | case3 l rest header hl ih =>
    cases h with
    | @cons _ l' _ rest' hvaries hrest =>
      have hcount := hvaries.count
      rw [hl, Option.map_some] at hcount
      obtain ⟨header', hl', hcount⟩ := Option.map_eq_some_iff.1 hcount.symm
      obtain ⟨hbody, hafter⟩ := forall₂_body (fun _ _ hl ↦ hl.inBody) hrest
      rw [sections_cons, hl', List.flatMap_cons, List.flatMap_cons]
      exact hT.append (events_loop_varied hT hcount.symm hbody) (ih hafter)

theorem Varies.refl (hT : Event.IsCongruence T) (l : Line) : l.Varies T l :=
  ⟨rfl, rfl, rfl, rfl, hT.refl _⟩

theorem forall₂_varies_ofPieces {R : String → String → Prop} {ss ts : List String}
    (hR : ∀ s t, R s t → ∀ n, (ofChars n s.toList).Varies T (ofChars n t.toList))
    (h : List.Forall₂ R ss ts) (first : Nat) :
    List.Forall₂ (Varies T) (ofPieces first (ss.map String.toList))
      (ofPieces first (ts.map String.toList)) := by
  induction h generalizing first with
  | nil => exact .nil
  | cons hs _ ih => exact .cons (hR _ _ hs first) (ih (first + 1))

/-- A script with some of its lines replaced by lines that make related things happen, wherever they
stand. -/
theorem events_intercalate_varied (hT : Event.IsCongruence T) {R : String → String → Prop}
    {script : String} {copy : List String}
    (hR : ∀ s t, R s t → ∀ n, (ofChars n s.toList).Varies T (ofChars n t.toList))
    (hnewline : ∀ s t, R s t → '\n' ∉ s.toList → '\n' ∉ t.toList)
    (h : List.Forall₂ R (texts script) copy) :
    T ((sections (ofScript script)).flatMap Section.events)
      ((sections (ofScript ("\n".intercalate copy))).flatMap Section.events) := by
  have hne : copy ≠ [] := by
    rintro rfl
    exact texts_ne_nil script (List.forall₂_nil_right_iff.1 h)
  have hcopy := newline_notMem_of_forall₂ hnewline h fun s hs ↦ newline_notMem_of_mem_texts hs
  rw [ofScript_intercalate hne hcopy, ofScript_eq_ofPieces]
  exact events_varied hT (forall₂_varies_ofPieces hR h 1)

end Line

end TurtleGraphics
