import Mathlib.Data.List.Forall2
import TurtleGraphics.Proofs.Script.Margin
import TurtleGraphics.Proofs.Script.Variation
import TurtleGraphics.Proofs.Statement.Count

/-!
# Scripts that differ in loop counts

Two counts are as good as each other if neither is less than some number, or if they are equal.
Scripts whose lines differ in such counts only fall into sections that differ in such counts only
(`sections_alike`), and other digits in the place of a count make a line of that kind
(`Line.alike_ofChars`).
-/

namespace TurtleGraphics

/-! ## Lines and sections up to counts -/

/-- Whether the lines differ at most in a loop count, and only if neither is below `enough`. -/
structure Line.Alike (enough : Nat) (l l' : Line) : Prop where
  number : l.number = l'.number
  inBody : l.inBody = l'.inBody
  opensLoop : l.opensLoop = l'.opensLoop
  event : l.event? = l'.event?
  count : (Section.header? l).map (min ·.count enough) =
    (Section.header? l').map (min ·.count enough)

/-- Whether the sections make the same happen up to a loop count, and differ in that only if neither
is below `enough`. -/
inductive Section.Alike (enough : Nat) : Section → Section → Prop
  | line {l l' : Line} (hevent : l.event? = l'.event?) : Alike enough (.line l) (.line l')
  | loop {l l' : Line} {h h' : LoopHeader} {body body' : List Line}
      (hnested : Line.nested? body = Line.nested? body')
      (hevents : body.filterMap Line.event? = body'.filterMap Line.event?)
      (hcount : min h.count enough = min h'.count enough) :
      Alike enough (.loop l h body) (.loop l' h' body')

namespace Line

variable {enough : Nat} {lines lines' : List Line}

theorem Alike.refl (l : Line) : l.Alike enough l := ⟨rfl, rfl, rfl, rfl, rfl⟩

theorem forall₂_alike_refl (lines : List Line) : List.Forall₂ (Alike enough) lines lines :=
  List.forall₂_same.2 fun l _ ↦ .refl l

theorem filterMap_event?_alike (h : List.Forall₂ (Alike enough) lines lines') :
    lines.filterMap event? = lines'.filterMap event? := by
  induction h with
  | nil => rfl
  | cons hl _ ih => rw [List.filterMap_cons, List.filterMap_cons, hl.event, ih]

end Line

/-- Lines that differ in counts only fall into sections that differ in counts only. -/
theorem sections_alike {enough : Nat} {lines lines' : List Line}
    (h : List.Forall₂ (Line.Alike enough) lines lines') :
    List.Forall₂ (Section.Alike enough) (sections lines) (sections lines') := by
  fun_induction sections lines generalizing lines' with
  | case1 =>
    cases h
    rw [sections_nil]
    exact .nil
  | case2 l rest hl ih =>
    cases h with
    | @cons _ l' _ rest' halike hrest =>
      have hl' : Section.header? l' = none := by
        have hcount := halike.count
        rw [hl, Option.map_none] at hcount
        exact Option.map_eq_none_iff.1 hcount.symm
      rw [sections_cons, hl']
      exact .cons (.line halike.event) (ih hrest)
  | case3 l rest header hl ih =>
    cases h with
    | @cons _ l' _ rest' halike hrest =>
      have hcount := halike.count
      rw [hl, Option.map_some] at hcount
      obtain ⟨header', hl', hcount⟩ := Option.map_eq_some_iff.1 hcount.symm
      obtain ⟨hbody, hafter⟩ := Line.forall₂_body (fun _ _ hl ↦ hl.inBody) hrest
      rw [sections_cons, hl']
      have hnested := Line.nested?_congr (fun _ _ hl ↦ hl.opensLoop) (fun _ _ hl ↦ hl.number) hbody
      exact .cons (.loop hnested (Line.filterMap_event?_alike hbody) hcount.symm) (ih hafter)

/-! ## Other digits in a line -/

namespace Line

/-- A line is a header if its tokens, with the blanks around them or not, are those of one. -/
theorem statement_ofChars_eq_header_iff {n : Nat} {cs : List Char} {h : LoopHeader} :
    (ofChars n cs).statement = .ok (.header h) ↔
      ∃ d, Tokens.ofChars cs = .ofList (LoopHeader.tokens h.counter d) ∧
        h.count = min (Token.decimal d) greatestCount := by
  rw [statement, LoopHeader.ofString_eq_header_iff, ofString_text_ofChars]

/-- The indentation of a line that goes on behind its indentation. -/
theorem indent_ofChars_append (n : Nat) {cs : List Char} (h : ∃ c ∈ cs, indents c = false)
    (rest : List Char) : (ofChars n (cs ++ rest)).indent = (cs.takeWhile indents).length := by
  obtain ⟨c, hc, hindents⟩ := h
  have hlength : (cs.takeWhile indents).length ≠ cs.length := by
    intro hlength
    have hall := List.takeWhile_eq_self_iff.1 ((List.takeWhile_prefix _).eq_of_length hlength)
    rw [hall c hc] at hindents
    cases hindents
  change ((cs ++ rest).takeWhile indents).length = _
  rw [List.takeWhile_append, if_neg hlength]

/-- What opens a header is no mere indentation. -/
theorem exists_not_indents_of_opening {counter : String} {cs : List Char}
    (h : Tokens.ofChars cs = .ofList (LoopHeader.opening counter)) :
    ∃ c ∈ cs, indents c = false := by
  by_contra hall
  have hblank : ∀ c ∈ cs, Text.isBlank c := by
    intro c hc
    refine isBlank_of_indents ?_
    by_contra hindents
    exact hall ⟨c, hc, Bool.eq_false_iff.2 hindents⟩
  rw [Tokens.ofChars_eq_finished_iff.2 ⟨cs, [], by simp, hblank, by simp⟩] at h
  cases h

/-- Headers in one place of a script differ in their counts only. -/
theorem alike_of_header {enough : Nat} {l l' : Line} {h h' : LoopHeader}
    (hnumber : l.number = l'.number) (hindent : l.indent = l'.indent)
    (hl : l.statement = .ok (.header h)) (hl' : l'.statement = .ok (.header h'))
    (hcount : min h.count enough = min h'.count enough) : l.Alike enough l' := by
  refine ⟨hnumber, ?_, ?_, ?_, ?_⟩
  · rw [inBody_eq (text_ne_of_header hl), inBody_eq (text_ne_of_header hl'), hindent]
  · exact (Statement.opensLoop_of_ofTokens hl).trans (Statement.opensLoop_of_ofTokens hl').symm
  · rw [event?_of_header hl, event?_of_header hl']
  · rw [Section.header?_eq_some_iff.2 hl, Section.header?_eq_some_iff.2 hl', Option.map_some,
      Option.map_some, hcount]

/-- Other digits in the place of a loop count make a line that differs in the count only. -/
theorem alike_ofChars {enough n : Nat} {counter p d d' q : String}
    (h : LoopHeader.CountBetween counter p d q)
    (hline : Tokens.ofString (p ++ d ++ q) = .ofList (LoopHeader.tokens counter d))
    (hd' : Token.IsDigits d')
    (hcount : min (min (Token.decimal d) greatestCount) enough =
      min (min (Token.decimal d') greatestCount) enough) :
    (ofChars n (p ++ d ++ q).toList).Alike enough (ofChars n (p ++ d' ++ q).toList) := by
  have hindent (e : String) :
      (ofChars n (p ++ e ++ q).toList).indent = (p.toList.takeWhile indents).length := by
    rw [String.toList_append, String.toList_append, List.append_assoc]
    exact indent_ofChars_append n (exists_not_indents_of_opening h.opening) _
  exact @alike_of_header enough _ _ ⟨counter, min (Token.decimal d) greatestCount⟩
    ⟨counter, min (Token.decimal d') greatestCount⟩ rfl ((hindent d).trans (hindent d').symm)
    (statement_ofChars_eq_header_iff.2 ⟨d, hline, rfl⟩)
    (statement_ofChars_eq_header_iff.2 ⟨d', h.tokens_eq hline hd', rfl⟩) hcount

end Line

/-! ## Counts that were lowered -/

namespace Section

/-- The section with another count, if it is a loop. -/
def recount (g : Nat → Nat) : Section → Section
  | .line l => .line l
  | .loop l header body => .loop l { header with count := g header.count } body

/-- Counts above a bound may be lowered to it, if the bound is not below `enough`. -/
theorem alike_recount_min {enough bound : Nat} (h : enough ≤ bound) (s : Section) :
    Alike enough (s.recount (min · bound)) s := by
  cases s with
  | line l => exact .line rfl
  | loop l header body =>
    refine .loop rfl rfl ?_
    change min (min header.count bound) enough = min header.count enough
    omega

theorem forall₂_alike_recount_min {enough bound : Nat} (h : enough ≤ bound) (ss : List Section) :
    List.Forall₂ (Alike enough) (ss.map (recount (min · bound))) ss := by
  induction ss with
  | nil => exact .nil
  | cons s ss ih => exact .cons (alike_recount_min h s) ih

end Section

end TurtleGraphics
