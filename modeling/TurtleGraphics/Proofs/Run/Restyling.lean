import Mathlib.Logic.Relation
import TurtleGraphics.Proofs.Run.Replay
import TurtleGraphics.Proofs.Script.Margin
import TurtleGraphics.Proofs.Script.Variation
import TurtleGraphics.Proofs.Statement.Wording

/-!
# Scripts in another style

A line that gives a command or opens a loop can be laid out in another way or put in other words,
and the newlines of a script can be preceded by carriage returns. The run of the script stays what
it was, down to the bits of its floats and the wording and the line of its fault, whatever else
stands in the script. Main statement: `Run.ofScript_restyled`.
-/

namespace TurtleGraphics

/-! ## Events that do the same -/

namespace Event

/-- Whether the same comes of the events: they are commands that do the same to every cursor, or one
fault. -/
inductive Same : Event → Event → Prop
  | command {c c' : Command} (h : c.Same c') : Same (.command c) (.command c')
  | fault (f : Fault) : Same (.fault f) (.fault f)

theorem Same.refl (e : Event) : e.Same e := by
  cases e with
  | command c => exact .command (.refl c)
  | fault f => exact .fault f

theorem isCongruence_same : IsCongruence (List.Forall₂ Same) :=
  ⟨fun _ ↦ List.forall₂_same.2 fun e _ ↦ .refl e, fun he hf ↦ List.rel_append he hf⟩

end Event

namespace Trail

theorem record_congr {c c' : Command} (h : c.Same c') (t : Trail) : t.record c = t.record c' := by
  simp only [record, h t.cursor]

theorem follow_congr {e e' : Event} (h : e.Same e') (maxSteps : Nat) (t : Trail) :
    t.follow maxSteps e = t.follow maxSteps e' := by
  cases h with
  | command h => simp only [follow, obey, record_congr h]
  | fault f => rfl

theorem followAll_congr {es es' : List Event} (h : List.Forall₂ Event.Same es es')
    (maxSteps : Nat) (t : Trail) : t.followAll maxSteps es = t.followAll maxSteps es' := by
  induction h generalizing t with
  | nil => rfl
  | cons he _ ih =>
    rw [followAll_cons, followAll_cons, follow_congr he]
    exact bind_congr ih

end Trail

/-! ## Lines in another style -/

namespace Line

/-- Whether `t` is `s`, which gives a command or opens a loop, in another style. Its tokens are laid
out in any way, the same or in other words, and it is indented if `s` is. -/
structure Restyled (s t : String) : Prop where
  statement : (∃ c, (ofText s).statement = .ok (.command c)) ∨
    ∃ h, (ofText s).statement = .ok (.header h)
  tokens : ∃ l l', Token.Laid l s.toList ∧ Token.Laid l' t.toList ∧
    (l' = l ∨ Grammar.Reworded l l')
  indent : (ofText t).indent = 0 ↔ (ofText s).indent = 0
  newline : '\n' ∉ t.toList

theorem inBody_congr {l l' : Line} (h : l.text ≠ "") (h' : l'.text ≠ "")
    (hindent : l'.indent = 0 ↔ l.indent = 0) : l.inBody = l'.inBody := by
  rw [inBody_eq h, inBody_eq h', decide_eq_decide, Nat.pos_iff_ne_zero, Nat.pos_iff_ne_zero]
  exact not_congr hindent.symm

theorem varies_of_command {l l' : Line} {c c' : Command} (hl : l.statement = .ok (.command c))
    (hl' : l'.statement = .ok (.command c')) (hsame : c.Same c') (hnumber : l.number = l'.number)
    (hindent : l'.indent = 0 ↔ l.indent = 0) : l.Varies (List.Forall₂ Event.Same) l' where
  number := hnumber
  inBody := inBody_congr (text_ne_of_command hl) (text_ne_of_command hl') hindent
  opensLoop := (Statement.opensLoop_of_command hl).trans (Statement.opensLoop_of_command hl').symm
  count := by rw [header?_of_command hl, header?_of_command hl']
  events := by
    rw [event?_of_command hl, event?_of_command hl']
    exact .cons (.command hsame) .nil

theorem varies_of_header {l l' : Line} {h h' : LoopHeader} (hl : l.statement = .ok (.header h))
    (hl' : l'.statement = .ok (.header h')) (hcount : h.count = h'.count)
    (hnumber : l.number = l'.number) (hindent : l'.indent = 0 ↔ l.indent = 0) :
    l.Varies (List.Forall₂ Event.Same) l' where
  number := hnumber
  inBody := inBody_congr (text_ne_of_header hl) (text_ne_of_header hl') hindent
  opensLoop := (Statement.opensLoop_of_ofTokens hl).trans (Statement.opensLoop_of_ofTokens hl').symm
  count := by
    rw [Section.header?_eq_some_iff.2 hl, Section.header?_eq_some_iff.2 hl', Option.map_some,
      Option.map_some, hcount]
  events := by
    rw [event?_of_header hl, event?_of_header hl']
    exact .nil

theorem Restyled.varies {s t : String} (h : Restyled s t) (n : Nat) :
    (ofChars n s.toList).Varies (List.Forall₂ Event.Same) (ofChars n t.toList) := by
  obtain ⟨l, l', hs, ht, hl⟩ := h.tokens
  have htokens {k : List Token} (hk : Tokens.ofChars s.toList = .ofList k) : k = l := by
    rw [Tokens.ofChars_laid hs] at hk
    simpa using (congrArg Tokens.toList hk).symm
  have ht := Tokens.ofChars_laid ht
  rcases h.statement with ⟨c, hc⟩ | ⟨header, hheader⟩
  · have hc := statement_ofChars_of_ok hc n
    obtain ⟨k, horder, hk⟩ :=
      Statement.ofTokens_eq_command_iff.1 ((statement_ofChars n _).symm.trans hc)
    obtain rfl := htokens hk
    have hc' : ∃ c', Grammar.Order l' c' ∧ c.Same c' := by
      rcases hl with rfl | hl
      · exact ⟨c, horder, .refl c⟩
      · exact hl.order horder
    obtain ⟨c', horder', hsame⟩ := hc'
    have ht' : (ofChars n t.toList).statement = .ok (.command c') :=
      (statement_ofChars n _).trans (Statement.ofTokens_eq_command_iff.2 ⟨l', horder', ht⟩)
    exact varies_of_command hc ht' hsame rfl h.indent
  · have hheader := statement_ofChars_of_ok hheader n
    obtain ⟨k, hgrammar, hk⟩ :=
      Statement.ofTokens_eq_header_iff.1 ((statement_ofChars n _).symm.trans hheader)
    obtain rfl := htokens hk
    have hheader' : ∃ header', Grammar.Header l' header' ∧ header.count = header'.count := by
      rcases hl with rfl | hl
      · exact ⟨header, hgrammar, rfl⟩
      · exact hl.header hgrammar
    obtain ⟨header', hgrammar', hcount⟩ := hheader'
    have ht' : (ofChars n t.toList).statement = .ok (.header header') :=
      (statement_ofChars n _).trans (Statement.ofTokens_eq_header_iff.2 ⟨l', hgrammar', ht⟩)
    exact varies_of_header hheader ht' hcount rfl h.indent

/-! ## Carriage returns -/

/-- A blank at the end of a line, if it does not indent, makes no difference. -/
theorem ofChars_concat {c : Char} (hc : Text.isBlank c) (hindents : indents c = false) (n : Nat)
    (cs : List Char) : ofChars n (cs ++ [c]) = ofChars n cs := by
  have hindent : (cs ++ [c]).takeWhile indents = cs.takeWhile indents := by
    rw [List.takeWhile_append]
    split
    · rename_i hlength
      rw [List.takeWhile_cons_of_neg (by simp [hindents]), List.append_nil,
        (List.takeWhile_prefix indents).eq_of_length hlength]
    · rfl
  rw [ofChars, ofChars, hindent, Text.trim_concat hc]

/-- Where the newlines of a text have carriage returns before them, its lines are what they were. -/
theorem ofPieces_splitOn_intercalate {pieces : List (List Char)} (hne : pieces ≠ [])
    (h : ∀ piece ∈ pieces, '\n' ∉ piece) (first : Nat) :
    ofPieces first (['\r', '\n'].intercalate pieces |>.splitOn '\n') = ofPieces first pieces := by
  induction pieces generalizing first with
  | nil => exact absurd rfl hne
  | cons piece pieces ih =>
    rw [List.forall_mem_cons] at h
    cases pieces with
    | nil => rw [List.intercalate_singleton, List.splitOn_eq_singleton h.1]
    | cons next pieces =>
      have hcarriage : '\n' ∉ piece ++ ['\r'] := by simpa using h.1
      have hsplit (rest : List Char) : (piece ++ ['\r', '\n'] ++ rest).splitOn '\n' =
          (piece ++ ['\r']) :: rest.splitOn '\n' := by
        calc (piece ++ ['\r', '\n'] ++ rest).splitOn '\n'
            = (piece ++ ['\r'] ++ '\n' :: rest).splitOn '\n' := by simp
          _ = (piece ++ ['\r']).splitOn '\n' ++ rest.splitOn '\n' :=
              List.splitOn_append_cons_self _ _
          _ = (piece ++ ['\r']) :: rest.splitOn '\n' := by
              rw [List.splitOn_eq_singleton hcarriage]
              rfl
      rw [List.intercalate_cons_cons, hsplit, ofPieces, ofPieces, ih (by simp) h.2,
        ofChars_concat (by decide) (by decide)]

theorem ofScript_intercalate_crlf (script : String) :
    ofScript ("\r\n".intercalate (texts script)) = ofScript script := by
  have hpieces : ∀ piece ∈ script.toList.splitOn '\n', '\n' ∉ piece :=
    fun _ ↦ notMem_of_mem_splitOn
  rw [ofScript, String.toList_intercalate, map_toList_texts]
  exact ofPieces_splitOn_intercalate (by simp) hpieces 1

end Line

/-! ## Scripts in another style -/

/-- One change to the style of a script: of one line that gives a command or opens a loop, or of all
its newlines. -/
inductive Restyling : String → String → Prop
  | line {script s t : String} {before after : List String}
      (hscript : Line.texts script = before ++ s :: after) (h : Line.Restyled s t) :
      Restyling script ("\n".intercalate (before ++ t :: after))
  | newlines (script : String) : Restyling script ("\r\n".intercalate (Line.texts script))

namespace Run

theorem ofScript_congr_events {script script' : String} (options : Options)
    (h : List.Forall₂ Event.Same ((sections (Line.ofScript script)).flatMap Section.events)
      ((sections (Line.ofScript script')).flatMap Section.events)) :
    ofScript script options = ofScript script' options := by
  rw [ofScript, ofScript, ofLines, ofLines, Trail.performAll_eq, Trail.performAll_eq,
    Trail.followAll_congr h]

/-- One change of style makes no difference. -/
theorem ofScript_restyling {script script' : String} (h : Restyling script script')
    (options : Options) : ofScript script' options = ofScript script options := by
  cases h with
  | @line s t before after hscript h =>
    refine (ofScript_congr_events options (Line.events_intercalate_varied Event.isCongruence_same
      (R := fun s t ↦ s = t ∨ Line.Restyled s t) ?_ ?_ ?_)).symm
    · rintro s t (rfl | h) n
      · exact .refl Event.isCongruence_same _
      · exact h.varies n
    · rintro s t (rfl | h) hs
      · exact hs
      · exact h.newline
    · rw [hscript]
      exact List.rel_append (List.forall₂_same.2 fun _ _ ↦ .inl rfl)
        (.cons (.inr h) (List.forall₂_same.2 fun _ _ ↦ .inl rfl))
  | newlines => rw [ofScript, ofScript, Line.ofScript_intercalate_crlf]

/-- The run of a script is the same in any style: however the lines that give commands and open
loops are laid out and worded, and whichever newlines it has. -/
theorem ofScript_restyled {script script' : String}
    (h : Relation.ReflTransGen Restyling script script') (options : Options) :
    ofScript script' options = ofScript script options := by
  induction h with
  | refl => rfl
  | tail _ hlast ih => rw [ofScript_restyling hlast, ih]

/-- A turn to the left as one to the right, laid out in another way and with a comment, and then
other newlines, in a script with free text and a loop. -/
theorem ofScript_restyled_turn :
    let script := "lt(90)\nhello\nfor i in range(2):\n\tfd(1)"
    let script' := "right( -90 ) # back\r\nhello\r\nfor i in range(2):\r\n\tfd(1)"
    Relation.ReflTransGen Restyling script script' ∧
      ofScript script' { maxSteps := 5 } = ofScript script { maxSteps := 5 } := by
  intro script script'
  let turned := ["right( -90 ) # back", "hello", "for i in range(2):", "\tfd(1)"]
  have hdistance : Grammar.Distance [.number "90" none] (Float.ofNat (Token.decimal "90")) :=
    .number (by decide +kernel)
  have hargument : Grammar.Argument .left [.number "90" none]
      (.left (Float.ofNat (Token.decimal "90"))) := ⟨_, .bare hdistance, rfl⟩
  have horder : Grammar.Order (Grammar.call [] "lt" [.number "90" none])
      (.left (Float.ofNat (Token.decimal "90"))) :=
    (Grammar.order_call_iff .absent).2 ⟨.left, by decide, hargument⟩
  have hreworded : Grammar.Reworded (Grammar.call [] "lt" [.number "90" none])
      (Grammar.call [] "right" (Grammar.negated "90")) :=
    .right .absent (by decide) (by decide) (.negate (by decide))
  have hcommand : (Line.ofText "lt(90)").statement =
      .ok (.command (.left (Float.ofNat (Token.decimal "90")))) :=
    Statement.ofTokens_eq_command_iff.2 ⟨_, horder, by decide +kernel⟩
  have hline : Line.Restyled "lt(90)" "right( -90 ) # back" :=
    ⟨.inl ⟨_, hcommand⟩,
      ⟨_, _, Tokens.ofChars_eq_ofList_iff.1 (by decide +kernel),
        Tokens.ofChars_eq_ofList_iff.1 (by decide +kernel), .inr hreworded⟩,
      by decide +kernel, by decide⟩
  have htexts : Line.texts script =
      [] ++ "lt(90)" :: ["hello", "for i in range(2):", "\tfd(1)"] := by decide +kernel
  have hturned : Line.texts ("\n".intercalate turned) = turned := by decide +kernel
  have hnewlines : "\r\n".intercalate turned = script' := by decide +kernel
  have hstyle : Relation.ReflTransGen Restyling script script' := by
    rw [← hnewlines, ← hturned]
    exact .tail (.single (.line htexts hline)) (.newlines _)
  exact ⟨hstyle, ofScript_restyled hstyle { maxSteps := 5 }⟩

end Run

end TurtleGraphics
