import TurtleGraphics.Proofs.Drawing.Moves
import TurtleGraphics.Proofs.Run.Pen
import TurtleGraphics.Proofs.Script.Written
import TurtleGraphics.Proofs.Token.Lexemes

/-!
# The characters in a drawing

Not every character may stand in a document, not even as a reference. All that a drawing adds by
itself may, but a colour is drawn as it was given, and it is given as it stands in the script. So a
drawing has forbidden characters in it exactly if a colour that shows has some, and then the script
or the colour at the start has them as well. Main statement: `Drawing.render_isChar`.
-/

namespace TurtleGraphics

/-! ## Where colours come from -/

namespace Token

/-- A text stands between its quotes as it is. -/
theorem Spelling.isInfix_text {s : String} {cs : List Char} (h : Spelling (.text s) cs) :
    s.toList <:+: cs := by
  cases h with
  | @text quote cs hquote hcs =>
    rw [String.toList_ofList]
    exact ⟨[quote], [quote], rfl⟩
  | symbol h =>
    unfold symbol? at h
    split at h <;> cases h

/-- Each token of a line is written somewhere in it. -/
theorem Laid.exists_spelling {t : Token} {ts : List Token} {cs : List Char} (h : Laid ts cs)
    (ht : t ∈ ts) : ∃ s, Spelling t s ∧ s <:+: cs := by
  induction h with
  | finished h => cases ht
  | blank hc h ih =>
    obtain ⟨s, hs, hpart⟩ := ih ht
    exact ⟨s, hs, hpart.trans (List.suffix_cons _ _).isInfix⟩
  | @cons t' ts rest cs hspelling hrest h ih =>
    obtain rfl | ht := List.mem_cons.1 ht
    · exact ⟨cs, hspelling, (List.prefix_append cs rest).isInfix⟩
    · obtain ⟨s, hs, hpart⟩ := ih ht
      exact ⟨s, hs, hpart.trans (List.suffix_append cs rest).isInfix⟩

end Token

namespace Line

/-- A colour stands in its line. -/
theorem isInfix_color {l : Line} {color : String}
    (h : l.statement = .ok (.command (.penColor color))) : color.toList <:+: l.text.toList := by
  obtain ⟨ts, horder, hts⟩ := Statement.ofTokens_eq_command_iff.1 h
  have hcolor : Token.text color ∈ ts := by
    obtain @⟨q, l, w, keyword, c, hq, hw, ⟨hargument⟩⟩ := horder
    cases keyword with
    | penColor =>
      obtain ⟨s, ⟨⟩, ⟨⟩⟩ := hargument
      simp
    | forward | backward | left | right =>
      obtain ⟨x, -, hx⟩ := hargument
      cases hx
    | penUp | penDown =>
      obtain ⟨-, hx⟩ := hargument
      cases hx
  obtain ⟨s, hs, hpart⟩ := (Tokens.ofChars_eq_ofList_iff.1 hts).exists_spelling hcolor
  exact hs.isInfix_text.trans hpart

theorem isInfix_intercalate {α : Type} {piece : List α} {pieces : List (List α)}
    (h : piece ∈ pieces) (separator : List α) : piece <:+: separator.intercalate pieces := by
  induction pieces with
  | nil => cases h
  | cons first pieces ih =>
    cases pieces with
    | nil =>
      rw [List.intercalate_singleton, List.mem_singleton.1 h]
    | cons second pieces =>
      rw [List.intercalate_cons_cons, List.append_assoc]
      obtain rfl | h := List.mem_cons.1 h
      · exact (List.prefix_append _ _).isInfix
      · exact (ih h).trans (List.suffix_append_of_suffix (List.suffix_append _ _)).isInfix

theorem exists_of_mem_ofPieces {first : Nat} {pieces : List (List Char)} {l : Line}
    (h : l ∈ ofPieces first pieces) : ∃ piece ∈ pieces, l.text.toList = Text.trim piece := by
  induction pieces generalizing first with
  | nil => cases h
  | cons piece pieces ih =>
    obtain rfl | h := List.mem_cons.1 h
    · exact ⟨piece, List.mem_cons_self, String.toList_ofList⟩
    · obtain ⟨piece', hmem, htext⟩ := ih h
      exact ⟨piece', List.mem_cons_of_mem piece hmem, htext⟩

/-- A line stands in its script. -/
theorem isInfix_text {script : String} {l : Line} (h : l ∈ ofScript script) :
    l.text.toList <:+: script.toList := by
  obtain ⟨piece, hpiece, htext⟩ := exists_of_mem_ofPieces h
  obtain ⟨before, after, hcs, -, -⟩ := Text.exists_trim piece
  have hpart := isInfix_intercalate hpiece ['\n']
  rw [List.intercalate_splitOn] at hpart
  rw [htext]
  exact List.IsInfix.trans ⟨before, after, hcs.symm⟩ hpart

end Line

/-- A colour is the one at the start or one that was given. -/
theorem Cursor.color_foldl_eq (s : Cursor) (cs : List Command) :
    (cs.foldl after s).color = s.color ∨ .penColor (cs.foldl after s).color ∈ cs := by
  rw [color_foldl]
  cases hlast : (cs.filterMap Command.color?).getLast? with
  | none => exact .inl rfl
  | some color =>
    obtain ⟨c, hc, hcolor⟩ := List.mem_filterMap.1 (List.mem_of_getLast? hlast)
    right
    cases c with
    | penColor color' =>
      cases hcolor
      exact hc
    | _ => cases hcolor

/-! ## Characters -/

/-- Whether a document may hold `c`. -/
def Xml.isChar (c : Char) : Bool :=
  c = '\t' || c = '\n' || c = '\r' || (0x20 ≤ c.toNat && c.toNat ≤ 0xD7FF) ||
    (0xE000 ≤ c.toNat && c.toNat ≤ 0xFFFD) || (0x10000 ≤ c.toNat && c.toNat ≤ 0x10FFFF)

namespace Drawing

theorem isChar_of_isNumeral {c : Char} (h : isNumeral c) : Xml.isChar c := by
  rw [isNumeral, Bool.or_eq_true] at h
  obtain h | h := h
  · have hcode := Token.toNat_of_isDigit h
    simp [Xml.isChar, show 0x20 ≤ c.toNat by omega, show c.toNat ≤ 0xD7FF by omega]
  · have hall : ['.', '-', 'N', 'a', 'i', 'n', 'f'].all Xml.isChar := by decide
    exact List.all_eq_true.1 hall c (List.elem_iff.1 h)

theorem all_isChar_coordinate (x : Float) : (coordinate x).toList.all Xml.isChar = true :=
  List.all_eq_true.2 fun c hc ↦
    isChar_of_isNumeral (List.all_eq_true.1 (all_isNumeral_fixed 3 x) c hc)

theorem all_isChar_escapeChar (c : Char) : (escapeChar c).all Xml.isChar = Xml.isChar c := by
  rw [escapeChar.eq_def]
  split
  · rfl
  · rfl
  · rfl
  · rfl
  · rfl
  · rw [List.all_cons, List.all_nil, Bool.and_true]

/-- Escaping neither adds nor takes away what is forbidden. -/
theorem all_isChar_escape (s : String) :
    (escape s).toList.all Xml.isChar = s.toList.all Xml.isChar := by
  rw [escape, String.toList_ofList, List.all_flatMap]
  simp only [all_isChar_escapeChar]

theorem all_isChar_header (b : Box) : (header b).toList.all Xml.isChar = true := by
  unfold header View.text
  simp only [String.toList_append, List.all_append, all_isChar_coordinate]
  rfl

theorem all_isChar_line (start stop : Cursor) :
    (line start stop).toList.all Xml.isChar = stop.color.toList.all Xml.isChar := by
  unfold line
  simp only [String.toList_append, List.all_append, all_isChar_coordinate, all_isChar_escape]
  cases stop.color.toList.all Xml.isChar with
  | false => rfl
  | true => rfl

theorem all_isChar_dot (last : Cursor) :
    (dot last).toList.all Xml.isChar = last.color.toList.all Xml.isChar := by
  unfold dot
  simp only [String.toList_append, List.all_append, all_isChar_coordinate, all_isChar_escape]
  cases last.color.toList.all Xml.isChar with
  | false => rfl
  | true => rfl

/-- The colours that show: those of the lines and that of the dot. -/
def shownColors (steps : List Step) : List String :=
  (drawn (steps.map Step.cursor)).map (fun p ↦ p.2.color) ++
    ((steps.map Step.cursor).getLast?.map Cursor.color).toList

/-- What is forbidden in a drawing is forbidden in a colour that shows. -/
theorem all_isChar_render (steps : List Step) :
    (render steps).toList.all Xml.isChar =
      (shownColors steps).all fun color ↦ color.toList.all Xml.isChar := by
  have hfooter : "</svg>\n".toList.all Xml.isChar = true := by decide
  unfold render
  simp only [String.toList_append, List.all_append, all_isChar_header, hfooter, String.toList_join,
    List.all_flatMap, lines, shownColors, drawn, List.all_map, Function.comp_def, all_isChar_line,
    Bool.true_and, Bool.and_true]
  congr 1
  cases (steps.map Step.cursor).getLast? with
  | none => rfl
  | some last =>
    show (dot last).toList.all Xml.isChar = (last.color.toList.all Xml.isChar && true)
    rw [all_isChar_dot, Bool.and_true]

theorem exists_of_mem_shownColors {steps : List Step} {color : String}
    (h : color ∈ shownColors steps) : ∃ step ∈ steps, step.cursor.color = color := by
  have hmap {c : Cursor} (hc : c ∈ steps.map Step.cursor) (hcolor : c.color = color) :
      ∃ step ∈ steps, step.cursor.color = color := by
    obtain ⟨step, hstep, rfl⟩ := List.mem_map.1 hc
    exact ⟨step, hstep, hcolor⟩
  obtain h | h := List.mem_append.1 h
  · obtain ⟨p, hp, hcolor⟩ := List.mem_map.1 h
    exact hmap (List.mem_of_mem_tail (List.of_mem_zip (List.mem_filter.1 hp).1).2) hcolor
  · obtain ⟨last, hlast, hcolor⟩ := Option.map_eq_some_iff.1 (Option.mem_toList.1 h)
    exact hmap (List.mem_of_getLast? hlast) hcolor

/-- The characters of the drawing of a run. It is read as a document, and it has no forbidden
character in it exactly if no colour that shows has one. Such a colour is the one at the start, or
it was given in a line of the script and stands there as it is. So a script and a colour without
forbidden characters make a drawing without. -/
theorem render_isChar (script : String) (options : Options) :
    let steps := (Run.ofScript script options).steps
    (∃ document, Xml.ofString? (render steps) = some document) ∧
    ((render steps).toList.all Xml.isChar =
      (shownColors steps).all fun color ↦ color.toList.all Xml.isChar) ∧
    (∀ color ∈ shownColors steps, color = options.color ∨
      ∃ l ∈ Line.ofScript script, l.statement = .ok (.command (.penColor color)) ∧
        color.toList <:+: script.toList) ∧
    (script.toList.all Xml.isChar → options.color.toList.all Xml.isChar →
      (render steps).toList.all Xml.isChar) := by
  intro steps
  have hshown : ∀ color ∈ shownColors steps, color = options.color ∨
      ∃ l ∈ Line.ofScript script, l.statement = .ok (.command (.penColor color)) ∧
        color.toList <:+: script.toList := by
    intro color hcolor
    obtain ⟨step, hstep, rfl⟩ := exists_of_mem_shownColors hcolor
    obtain ⟨i, hi⟩ := Run.exists_of_mem_steps_ofScript hstep
    obtain hstart | hgiven := Cursor.color_foldl_eq (.fresh options.color)
      (((Command.ofScript script).take options.maxSteps).take i)
    · exact .inl (hi ▸ hstart)
    · rw [← hi] at hgiven
      obtain ⟨l, hl, hstatement⟩ := Command.exists_line_of_mem_ofScript
        (List.mem_of_mem_take (List.mem_of_mem_take hgiven))
      exact .inr ⟨l, hl, hstatement, (Line.isInfix_color hstatement).trans (Line.isInfix_text hl)⟩
  refine ⟨⟨_, ofString?_render steps⟩, all_isChar_render steps, hshown, fun hscript hstart ↦ ?_⟩
  rw [all_isChar_render, List.all_eq_true]
  intro color hcolor
  obtain rfl | ⟨l, -, -, hpart⟩ := hshown color hcolor
  · exact hstart
  · rw [List.all_eq_true] at hscript ⊢
    exact fun c hc ↦ hscript c (hpart.subset hc)

/-- Markup, quotes, a tab and a letter with an accent in the colours of a run. -/
theorem render_isChar_of_markup :
    let script := "pencolor('&\t<é>')"
    let options : Options := { color := "\"red\"" }
    let steps := (Run.ofScript script options).steps
    script.toList.all Xml.isChar = true ∧ options.color.toList.all Xml.isChar = true ∧
      shownColors steps = ["&\t<é>"] ∧ "&\t<é>".toList <:+: script.toList ∧
      (∃ document, Xml.ofString? (render steps) = some document) ∧
      (render steps).toList.all Xml.isChar = true := by
  intro script options steps
  have hscript : script.toList.all Xml.isChar = true := by decide +kernel
  have hcolor : options.color.toList.all Xml.isChar = true := by decide +kernel
  have hshown : shownColors steps = ["&\t<é>"] := by decide +kernel
  obtain ⟨hdocument, -, hgiven, hchars⟩ := render_isChar script options
  obtain hstart | ⟨-, -, -, hpart⟩ := hgiven "&\t<é>" (hshown ▸ List.mem_singleton_self _)
  · exact absurd hstart (by decide)
  · exact ⟨hscript, hcolor, hshown, hpart, hdocument, hchars hscript hcolor⟩

/-- A control character in a colour is drawn. -/
theorem render_not_isChar :
    let steps := (Run.ofScript "pencolor('\x01')").steps
    defaultColor.toList.all Xml.isChar = true ∧ '\x01' ∈ (render steps).toList ∧
      Xml.isChar '\x01' = false := by
  decide +kernel

end Drawing

end TurtleGraphics
