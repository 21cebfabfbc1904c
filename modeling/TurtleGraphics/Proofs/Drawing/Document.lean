import TurtleGraphics.Drawing
import TurtleGraphics.Proofs.Decimal.Digits
import TurtleGraphics.Proofs.Drawing.Tag

/-!
# Drawings as documents

A drawing is a document of one element, whatever the colours and the positions in it are. The text
of a colour is escaped, so that it stays inside the attribute that it is written into, and it is
what a reader finds there. Main statement: `Drawing.render_isDocument`.
-/

namespace TurtleGraphics.Drawing

open Xml

/-! ## Escaped texts -/

theorem decode?_escapeChar (c : Char) (cs : List Char) :
    decode? none (escapeChar c ++ cs) = (c :: ·) <$> decode? none cs := by
  rw [escapeChar.eq_def]
  split
  · rfl
  · rfl
  · rfl
  · rfl
  · rfl
  · next hamp hlt _ _ _ => exact decode?_cons hamp hlt cs

/-- What is escaped stands for what it was. -/
theorem decode?_escape (s : String) : decode? none (escape s).toList = some s.toList := by
  rw [escape, String.toList_ofList]
  induction s.toList with
  | nil => rfl
  | cons c cs ih =>
    rw [List.flatMap_cons, decode?_escapeChar, ih]
    rfl

theorem escape_inj {s t : String} (h : escape s = escape t) : s = t := by
  have hdecode := decode?_escape s
  rw [h, decode?_escape] at hdecode
  exact (String.toList_inj.1 (Option.some.inj hdecode)).symm

/-- The references that are written for characters, after their `&`. -/
def references : List String := ["amp;", "lt;", "gt;", "quot;", "apos;"]

/-- A character is written as itself, if it has no part in markup, or as a reference. -/
theorem escapeChar_cases (c : Char) :
    ((c ≠ '&' ∧ c ≠ '<' ∧ c ≠ '>' ∧ c ≠ '"' ∧ c ≠ '\'') ∧ escapeChar c = [c]) ∨
      ∃ reference ∈ references, escapeChar c = '&' :: reference.toList := by
  rw [escapeChar.eq_def]
  split
  · exact .inr ⟨"amp;", by decide, by simp⟩
  · exact .inr ⟨"lt;", by decide, by simp⟩
  · exact .inr ⟨"gt;", by decide, by simp⟩
  · exact .inr ⟨"quot;", by decide, by simp⟩
  · exact .inr ⟨"apos;", by decide, by simp⟩
  · next hamp hlt hgt hquot hapos => exact .inl ⟨⟨hamp, hlt, hgt, hquot, hapos⟩, rfl⟩

/-- Nothing that ends a value or begins a tag is left. -/
theorem ne_of_mem_escape {s : String} {c : Char} (h : c ∈ (escape s).toList) :
    c ≠ '<' ∧ c ≠ '>' ∧ c ≠ '"' ∧ c ≠ '\'' := by
  have hreference : ∀ reference ∈ references, ('&' :: reference.toList).all fun d ↦
      d ≠ '<' && d ≠ '>' && d ≠ '"' && d ≠ '\'' := by decide
  rw [escape, String.toList_ofList, List.mem_flatMap] at h
  obtain ⟨d, -, hc⟩ := h
  obtain ⟨⟨-, hd⟩, hself⟩ | ⟨reference, hmem, href⟩ := escapeChar_cases d
  · rw [hself] at hc
    rwa [List.mem_singleton.1 hc]
  · rw [href] at hc
    have hne := List.all_eq_true.1 (hreference reference hmem) c hc
    simpa only [Bool.and_eq_true, decide_eq_true_eq, and_assoc] using hne

theorem exists_reference_of_escapeChar {c : Char} {before after : List Char}
    (h : escapeChar c = before ++ '&' :: after) :
    ∃ reference ∈ references, reference.toList = after := by
  obtain ⟨⟨hc, -⟩, hself⟩ | ⟨reference, hmem, href⟩ := escapeChar_cases c
  · rw [hself] at h
    have hamp : '&' ∈ [c] := h ▸ List.mem_append_right before List.mem_cons_self
    exact absurd (List.mem_singleton.1 hamp).symm hc
  · rw [href] at h
    cases before with
    | nil => exact ⟨reference, hmem, (List.cons.inj h).2⟩
    | cons b before =>
      have hnot : ∀ r ∈ references, '&' ∉ r.toList := by decide
      refine absurd ?_ (hnot reference hmem)
      rw [(List.cons.inj h).2]
      exact List.mem_append_right before List.mem_cons_self

/-- Every `&` in an escaped text begins a reference. -/
theorem exists_reference_of_flatMap {cs before after : List Char}
    (h : cs.flatMap escapeChar = before ++ '&' :: after) :
    ∃ reference ∈ references, reference.toList <+: after := by
  induction cs generalizing before with
  | nil => cases before <;> cases h
  | cons c cs ih =>
    rw [List.flatMap_cons] at h
    obtain ⟨m, -, hcs⟩ | ⟨m, hc, hafter⟩ := List.append_eq_append_iff.1 h
    · exact ih hcs
    · cases m with
      | nil => exact @ih [] hafter.symm
      | cons d m =>
        obtain ⟨rfl, rfl⟩ := List.cons.inj hafter
        obtain ⟨reference, hmem, rfl⟩ := exists_reference_of_escapeChar hc
        exact ⟨reference, hmem, List.prefix_append _ _⟩

/-! ## Numbers -/

/-- Whether `c` may stand in a number with a fixed number of places, or in what is written for none
and for an infinity. -/
def isNumeral (c : Char) : Bool := c.isDigit || ['.', '-', 'N', 'a', 'i', 'n', 'f'].elem c

theorem isPlain_of_isNumeral {c : Char} (h : isNumeral c) : isPlain c := by
  refine isPlain_iff.2 ⟨?_, ?_, ?_⟩
  · rintro rfl
    revert h
    decide
  · rintro rfl
    revert h
    decide
  · rintro rfl
    revert h
    decide

theorem all_isNumeral_sign (negative : Bool) : (Decimal.sign negative).all isNumeral := by
  cases negative with
  | false => rfl
  | true => rfl

/-- A number with all its places written has nothing but digits and a point in it. -/
theorem isDigit_or_of_mem_pointed {places units : Nat} {c : Char}
    (h : c ∈ Decimal.pointed places units) : c.isDigit ∨ c = '.' := by
  obtain ⟨whole, fraction, hpointed, -, -, hdigits, -⟩ := Decimal.exists_pointed places units
  rw [hpointed, List.mem_append, List.mem_cons] at h
  obtain hc | rfl | hc := h
  · exact .inl (hdigits c (List.mem_append_left _ hc))
  · exact .inr rfl
  · exact .inl (hdigits c (List.mem_append_right _ hc))

theorem all_isNumeral_pointed (places units : Nat) :
    (Decimal.pointed places units).all isNumeral := by
  rw [List.all_eq_true]
  intro c hc
  obtain hc | rfl := isDigit_or_of_mem_pointed hc
  · rw [isNumeral, hc, Bool.true_or]
  · rfl

theorem all_isNumeral_fixed (places : Nat) (x : Float) :
    (Decimal.fixed places x).toList.all isNumeral := by
  rw [Decimal.fixed, String.toList_ofList]
  split
  · rfl
  · rw [List.all_append, all_isNumeral_sign]
    rfl
  · rw [List.all_append, all_isNumeral_sign, all_isNumeral_pointed]
    rfl

/-- A coordinate stands for itself inside a value. -/
theorem all_isPlain_coordinate (x : Float) : (coordinate x).toList.all isPlain :=
  List.all_eq_true.2 fun c hc ↦
    isPlain_of_isNumeral (List.all_eq_true.1 (all_isNumeral_fixed 3 x) c hc)

/-! ## Tags -/

/-- The attribute with the given coordinate. -/
def coordinateAttribute (name : String) (h : isName name.toList) (x : Float) : Attribute :=
  .plain name (coordinate x) h (all_isPlain_coordinate x)

/-- The attribute with the given colour. -/
def colorAttribute (name : String) (h : isName name.toList) (color : String) : Attribute where
  name
  value := color
  written := (escape color).toList
  isName := h
  quotable hmem := (ne_of_mem_escape hmem).2.2.1 rfl
  decodes := decode?_escape color

theorem all_isPlain_text (v : View Float) : v.text.toList.all isPlain := by
  simp only [View.text, String.toList_append, List.all_append, all_isPlain_coordinate]
  rfl

def rootAttributes (b : Box) : List Attribute :=
  [.plain "xmlns" "http://www.w3.org/2000/svg" (by decide) (by decide),
    .plain "viewBox" b.view.text (by decide) (all_isPlain_text b.view)]

def lineAttributes (start stop : Cursor) : List Attribute :=
  [coordinateAttribute "x1" (by decide) start.x, coordinateAttribute "y1" (by decide) (-start.y),
    coordinateAttribute "x2" (by decide) stop.x, coordinateAttribute "y2" (by decide) (-stop.y),
    colorAttribute "stroke" (by decide) stop.color,
    .plain "stroke-width" "2" (by decide) (by decide),
    .plain "stroke-linecap" "round" (by decide) (by decide)]

def dotAttributes (last : Cursor) : List Attribute :=
  [coordinateAttribute "cx" (by decide) last.x, coordinateAttribute "cy" (by decide) (-last.y),
    .plain "r" "4" (by decide) (by decide), colorAttribute "fill" (by decide) last.color]

theorem toList_header (b : Box) : (header b).toList =
    '<' :: ("svg".toList ++ ((rootAttributes b).flatMap Attribute.chars ++ '>' :: ['\n'])) := by
  -- The equation of a definition with this many literals takes long to make, unfolding does not.
  unfold header
  simp only [rootAttributes, List.flatMap_cons, List.flatMap_nil, Attribute.chars,
    Attribute.plain]
  simp

theorem toList_line (start stop : Cursor) : (line start stop).toList =
    [' ', ' '] ++ '<' :: ("line".toList ++
      ((lineAttributes start stop).flatMap Attribute.chars ++ '/' :: '>' :: ['\n'])) := by
  unfold line
  simp only [lineAttributes, List.flatMap_cons, List.flatMap_nil, Attribute.chars,
    coordinateAttribute, colorAttribute, Attribute.plain]
  simp

theorem toList_dot (last : Cursor) : (dot last).toList =
    [' ', ' '] ++ '<' :: ("circle".toList ++
      ((dotAttributes last).flatMap Attribute.chars ++ '/' :: '>' :: ['\n'])) := by
  unfold dot
  simp only [dotAttributes, List.flatMap_cons, List.flatMap_nil, Attribute.chars,
    coordinateAttribute, colorAttribute, Attribute.plain]
  simp

theorem nodup_rootAttributes (b : Box) : ((rootAttributes b).map Attribute.name).Nodup := by
  show ["xmlns", "viewBox"].Nodup
  decide

theorem nodup_lineAttributes (start stop : Cursor) :
    ((lineAttributes start stop).map Attribute.name).Nodup := by
  show ["x1", "y1", "x2", "y2", "stroke", "stroke-width", "stroke-linecap"].Nodup
  decide

theorem nodup_dotAttributes (last : Cursor) :
    ((dotAttributes last).map Attribute.name).Nodup := by
  show ["cx", "cy", "r", "fill"].Nodup
  decide

/-! ## Reading the document -/

theorem all_isSpace_newline : ['\n'].all isSpace := rfl

/-- A tag on a line of its own is read, and the line is at its end. -/
theorem ofChars_tagLine {name : String} {attributes : List Attribute} (hname : isName name.toList)
    (hnames : (attributes.map Attribute.name).Nodup) (cs : List Char) :
    Markup.ofChars ([' ', ' '] ++ '<' :: (name.toList ++
        (attributes.flatMap Attribute.chars ++ '/' :: '>' :: ['\n'])) ++ cs) =
      (Markup.empty name (attributes.map Attribute.pair) :: ·) <$> Markup.ofChars cs := by
  have hindent : [' ', ' '].all isSpace := rfl
  calc Markup.ofChars ([' ', ' '] ++ '<' :: (name.toList ++
          (attributes.flatMap Attribute.chars ++ '/' :: '>' :: ['\n'])) ++ cs)
      = Markup.ofChars ([' ', ' '] ++ '<' :: (name.toList ++
          (attributes.flatMap Attribute.chars ++ '/' :: '>' :: (['\n'] ++ cs)))) := by
        simp only [List.append_assoc, List.cons_append]
    _ = (Markup.empty name (attributes.map Attribute.pair) :: ·) <$>
          Markup.ofChars (['\n'] ++ cs) := by
        rw [Markup.ofChars_space_append hindent, Markup.ofChars_empty hname hnames]
    _ = _ := by rw [Markup.ofChars_space_append all_isSpace_newline]

theorem ofChars_header (b : Box) (cs : List Char) :
    Markup.ofChars ((header b).toList ++ cs) =
      (Markup.opening "svg" ((rootAttributes b).map Attribute.pair) :: ·) <$>
        Markup.ofChars cs := by
  calc Markup.ofChars ((header b).toList ++ cs)
      = Markup.ofChars ('<' :: ("svg".toList ++
          ((rootAttributes b).flatMap Attribute.chars ++ '>' :: (['\n'] ++ cs)))) := by
        rw [toList_header]
        simp only [List.append_assoc, List.cons_append]
    _ = (Markup.opening "svg" ((rootAttributes b).map Attribute.pair) :: ·) <$>
          Markup.ofChars (['\n'] ++ cs) :=
        Markup.ofChars_opening (by decide) (nodup_rootAttributes b) _
    _ = _ := by rw [Markup.ofChars_space_append all_isSpace_newline]

/-- The tag of the line from one cursor to the next. -/
def lineTag (p : Cursor × Cursor) : Markup :=
  .empty "line" ((lineAttributes p.1 p.2).map Attribute.pair)

/-- The tag of the dot. -/
def dotTag (last : Cursor) : Markup := .empty "circle" ((dotAttributes last).map Attribute.pair)

theorem ofChars_lines (ps : List (Cursor × Cursor)) (cs : List Char) :
    Markup.ofChars ((ps.map fun p ↦ line p.1 p.2).flatMap String.toList ++ cs) =
      (ps.map lineTag ++ ·) <$> Markup.ofChars cs := by
  induction ps with
  | nil => exact (id_map (Markup.ofChars cs)).symm
  | cons p ps ih =>
    rw [List.map_cons, List.flatMap_cons, List.append_assoc, toList_line,
      ofChars_tagLine (by decide) (nodup_lineAttributes p.1 p.2), ih, Option.map_eq_map,
      Option.map_eq_map, Option.map_map]
    rfl

theorem ofChars_dot (last? : Option Cursor) (cs : List Char) :
    Markup.ofChars (((last?.map dot).getD "").toList ++ cs) =
      (last?.toList.map dotTag ++ ·) <$> Markup.ofChars cs := by
  cases last? with
  | none => exact (id_map (Markup.ofChars cs)).symm
  | some last =>
    show Markup.ofChars ((dot last).toList ++ cs) = _
    rw [toList_dot, ofChars_tagLine (by decide) (nodup_dotAttributes last)]
    rfl

theorem ofChars_footer : Markup.ofChars "</svg>\n".toList = some [.closing "svg"] := by
  have hchars : "</svg>\n".toList = '<' :: '/' :: ("svg".toList ++ '>' :: (['\n'] ++ [])) := by simp
  rw [hchars, Markup.ofChars_closing (by decide),
    Markup.ofChars_space_append all_isSpace_newline, Markup.ofChars_nil]
  rfl

/-- Each cursor with the next one, where the way between them is drawn. -/
def drawn (cursors : List Cursor) : List (Cursor × Cursor) :=
  (pairs cursors).filter fun p ↦ isDrawn p.1 p.2

theorem ofChars_render (steps : List Step) :
    Markup.ofChars (render steps).toList =
      some (.opening "svg" ((rootAttributes (.ofSteps steps)).map Attribute.pair) ::
        ((drawn (steps.map Step.cursor)).map lineTag ++
          ((steps.map Step.cursor).getLast?.toList.map dotTag ++ [.closing "svg"]))) := by
  unfold render
  simp only [String.toList_append, String.toList_join, List.append_assoc]
  rw [ofChars_header, lines, ← drawn, ofChars_lines, ofChars_dot, ofChars_footer]
  rfl

/-- The element that the line from one cursor to the next is. -/
def lineElement (start stop : Cursor) : Xml :=
  .element "line" [("x1", coordinate start.x), ("y1", coordinate (-start.y)),
    ("x2", coordinate stop.x), ("y2", coordinate (-stop.y)), ("stroke", stop.color),
    ("stroke-width", "2"), ("stroke-linecap", "round")] []

/-- The element that the dot is. -/
def dotElement (last : Cursor) : Xml :=
  .element "circle" [("cx", coordinate last.x), ("cy", coordinate (-last.y)), ("r", "4"),
    ("fill", last.color)] []

theorem isEmpty_lineTag (p : Cursor × Cursor) : (lineTag p).IsEmpty (lineElement p.1 p.2) := by
  have hpairs : (lineAttributes p.1 p.2).map Attribute.pair =
      [("x1", coordinate p.1.x), ("y1", coordinate (-p.1.y)), ("x2", coordinate p.2.x),
        ("y2", coordinate (-p.2.y)), ("stroke", p.2.color), ("stroke-width", "2"),
        ("stroke-linecap", "round")] := rfl
  exact ⟨"line", _, rfl, by rw [hpairs, lineElement]⟩

theorem isEmpty_dotTag (last : Cursor) : (dotTag last).IsEmpty (dotElement last) := by
  have hpairs : (dotAttributes last).map Attribute.pair =
      [("cx", coordinate last.x), ("cy", coordinate (-last.y)), ("r", "4"),
        ("fill", last.color)] := rfl
  exact ⟨"circle", _, rfl, by rw [hpairs, dotElement]⟩

/-- The tags of a drawing are one element with the lines and the dot in it. -/
theorem nest_tags (attributes : List (String × String)) (ps : List (Cursor × Cursor))
    (dots : List Cursor) :
    Markup.nest [] [] (.opening "svg" attributes ::
        (ps.map lineTag ++ (dots.map dotTag ++ [.closing "svg"]))) =
      some [.element "svg" attributes
        (ps.map (fun p ↦ lineElement p.1 p.2) ++ dots.map dotElement)] := by
  rw [Markup.nest, Markup.nest_map isEmpty_lineTag, Markup.nest_map isEmpty_dotTag,
    List.nil_append]
  rfl

/-- A drawing is read as one element with the lines and the dot in it. -/
theorem ofString?_render (steps : List Step) :
    Xml.ofString? (render steps) = some (.element "svg"
      [("xmlns", "http://www.w3.org/2000/svg"), ("viewBox", (Box.ofSteps steps).view.text)]
      ((drawn (steps.map Step.cursor)).map (fun p ↦ lineElement p.1 p.2) ++
        (steps.map Step.cursor).getLast?.toList.map dotElement)) := by
  have hpairs : (rootAttributes (.ofSteps steps)).map Attribute.pair =
      [("xmlns", "http://www.w3.org/2000/svg"), ("viewBox", (Box.ofSteps steps).view.text)] := rfl
  rw [Xml.ofString?, ofChars_render, hpairs]
  simp only [Option.bind_eq_bind, Option.bind_some]
  rw [nest_tags]
  rfl

/-- The drawn ways between the cursors of steps. -/
theorem drawn_map_cursor (steps : List Step) :
    drawn (steps.map Step.cursor) =
      ((steps.zip steps.tail).filter fun p ↦ isDrawn p.1.cursor p.2.cursor).map
        (Prod.map Step.cursor Step.cursor) := by
  rw [drawn, pairs, ← List.map_tail, List.zip_map, List.filter_map]
  rfl

/-- Whatever the colours and the positions are, a drawing is one element `svg` with a line for each
pair of steps of which the later has its pen down and is not at the place of the earlier, and a dot
for the last step. No element has other attributes than these, and their values are what was drawn:
an escaped text stands for the text, and nothing in it ends the value or begins a tag. -/
theorem render_isDocument (steps : List Step) :
    Xml.ofString? (render steps) = some (.element "svg"
      [("xmlns", "http://www.w3.org/2000/svg"), ("viewBox", (Box.ofSteps steps).view.text)]
      (((steps.zip steps.tail).filter fun p ↦ p.2.cursor.penDown &&
            !(p.1.cursor.x == p.2.cursor.x && p.1.cursor.y == p.2.cursor.y)).map
          (fun p ↦ .element "line"
            [("x1", coordinate p.1.cursor.x), ("y1", coordinate (-p.1.cursor.y)),
              ("x2", coordinate p.2.cursor.x), ("y2", coordinate (-p.2.cursor.y)),
              ("stroke", p.2.cursor.color), ("stroke-width", "2"), ("stroke-linecap", "round")]
            []) ++
        (steps.getLast?.map fun last ↦ .element "circle"
            [("cx", coordinate last.cursor.x), ("cy", coordinate (-last.cursor.y)), ("r", "4"),
              ("fill", last.cursor.color)] []).toList)) ∧
    (∀ s, Xml.decode? none (escape s).toList = some s.toList) ∧
    Function.Injective escape ∧
    (∀ s, ∀ c ∈ (escape s).toList, c ≠ '<' ∧ c ≠ '>' ∧ c ≠ '"' ∧ c ≠ '\'') ∧
    ∀ s before after, (escape s).toList = before ++ '&' :: after →
      ∃ reference ∈ ["amp;", "lt;", "gt;", "quot;", "apos;"], reference.toList <+: after := by
  refine ⟨?_, decode?_escape, fun _ _ ↦ escape_inj, fun _ _ ↦ ne_of_mem_escape, ?_⟩
  · rw [ofString?_render, drawn_map_cursor, List.map_map, List.getLast?_map]
    cases steps.getLast? with
    | none => rfl
    | some last => rfl
  · intro s before after h
    rw [escape, String.toList_ofList] at h
    exact exists_reference_of_flatMap h

end TurtleGraphics.Drawing
