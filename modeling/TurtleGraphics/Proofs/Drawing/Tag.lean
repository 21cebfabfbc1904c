import TurtleGraphics.Proofs.Drawing.Markup

/-!
# Tags that are read back

A tag that is written in the usual way, each value between double quotes and in characters that
stand for it, is read as what it says, whatever comes after it. Main statements:
`Xml.Markup.ofChars_opening`, `Xml.Markup.ofChars_empty` and `Xml.Markup.ofChars_closing`.
-/

namespace TurtleGraphics.Xml

/-! ## Reading one thing after the other -/

section Many

variable {α : Type} {read? : List Char → Option (α × List Char)} {h : Shortens read?}
  {cs rest : List Char} {a : α}

/-- Nothing more can be read. -/
theorem readMany_of_eq_none (hread : read? cs = none) : readMany read? h cs = ([], cs) := by
  rw [readMany]
  split
  · rfl
  · next hsome => cases hread.symm.trans hsome

theorem readMany_of_eq_some (hread : read? cs = some (a, rest)) :
    readMany read? h cs = (a :: (readMany read? h rest).1, (readMany read? h rest).2) := by
  rw [readMany]
  split
  · next hnone => cases hread.symm.trans hnone
  · next hsome => cases hread.symm.trans hsome; rfl

end Many

/-! ## Names -/

/-- Whether the characters are a name. -/
def isName : List Char → Bool
  | [] => false
  | c :: cs => isNameStart c && cs.all isNameChar

theorem isNameChar_of_isNameStart {c : Char} (h : isNameStart c) : isNameChar c := by
  rw [isNameChar, h]
  rfl

theorem isNameStart_eq_false_of_isSpace {c : Char} (h : isSpace c) : isNameStart c = false := by
  simp only [isSpace, Bool.or_eq_true, decide_eq_true_eq] at h
  rcases h with ((rfl | rfl) | rfl) | rfl <;> decide

theorem skipSpace_of_isSpace_eq_false {c : Char} {cs : List Char} (h : isSpace c = false) :
    skipSpace (c :: cs) = c :: cs :=
  List.dropWhile_cons_of_neg (by rw [h]; exact Bool.false_ne_true)

theorem skipSpace_append {space : List Char} (h : space.all isSpace) (cs : List Char) :
    skipSpace (space ++ cs) = skipSpace cs := List.dropWhile_append_of_pos (List.all_eq_true.1 h)

theorem skipSpace_name_append {name : List Char} (h : isName name) (cs : List Char) :
    skipSpace (name ++ cs) = name ++ cs := by
  cases name with
  | nil => cases h
  | cons c name =>
    refine skipSpace_of_isSpace_eq_false (Bool.eq_false_iff.2 fun hspace ↦ ?_)
    rw [isName, isNameStart_eq_false_of_isSpace hspace] at h
    cases h

theorem readName?_append {name : List Char} {c : Char} {cs : List Char} (h : isName name)
    (hc : isNameChar c = false) :
    readName? (name ++ c :: cs) = some (String.ofList name, c :: cs) := by
  cases name with
  | nil => cases h
  | cons d name =>
    rw [isName, Bool.and_eq_true] at h
    have hall : ∀ e ∈ d :: name, isNameChar e :=
      List.forall_mem_cons.2 ⟨isNameChar_of_isNameStart h.1, List.all_eq_true.1 h.2⟩
    have hc : ¬ isNameChar c = true := by rw [hc]; exact Bool.false_ne_true
    rw [readName?, List.takeWhile_append_of_pos hall, List.dropWhile_append_of_pos hall,
      List.takeWhile_cons_of_neg hc, List.dropWhile_cons_of_neg hc, List.append_nil]
    exact if_pos h.1

/-! ## Values and attributes -/

theorem decode?_cons {c : Char} (h : c ≠ '&') (h' : c ≠ '<') (cs : List Char) :
    decode? none (c :: cs) = (c :: ·) <$> decode? none cs := by
  rw [decode?, if_neg h', if_neg h]

/-- Whether `c` stands for itself inside a value. -/
def isPlain (c : Char) : Bool := c ≠ '&' && c ≠ '<' && c ≠ '"'

theorem isPlain_iff {c : Char} : isPlain c ↔ c ≠ '&' ∧ c ≠ '<' ∧ c ≠ '"' := by
  simp only [isPlain, Bool.and_eq_true, decide_eq_true_eq, and_assoc]

theorem decode?_eq_self {cs : List Char} (h : cs.all isPlain) : decode? none cs = some cs := by
  induction cs with
  | nil => rfl
  | cons c cs ih =>
    rw [List.all_cons, Bool.and_eq_true] at h
    obtain ⟨hamp, hlt, -⟩ := isPlain_iff.1 h.1
    rw [decode?_cons hamp hlt, ih h.2]
    rfl

/-- An attribute and the characters that its value is written in. -/
structure Attribute where
  name : String
  value : String
  written : List Char
  isName : isName name.toList
  quotable : '"' ∉ written
  decodes : decode? none written = some value.toList

namespace Attribute

/-- What is read of the attribute. -/
def pair (a : Attribute) : String × String := (a.name, a.value)

/-- The attribute as it is written. -/
def chars (a : Attribute) : List Char := ' ' :: a.name.toList ++ '=' :: '"' :: a.written ++ ['"']

/-- An attribute with a value that stands for itself. -/
def plain (name value : String) (isName : Xml.isName name.toList)
    (h : value.toList.all isPlain) : Attribute where
  name
  value
  written := value.toList
  isName
  quotable hmem := (isPlain_iff.1 (List.all_eq_true.1 h _ hmem)).2.2 rfl
  decodes := decode?_eq_self h

end Attribute

theorem readValue?_append {w : List Char} {value : String} (hw : '"' ∉ w)
    (hdecode : decode? none w = some value.toList) (cs : List Char) :
    readValue? ('"' :: w ++ '"' :: cs) = some (value, cs) := by
  have hall : ∀ c ∈ w, decide (c ≠ '"') = true := fun c hc ↦
    decide_eq_true fun heq ↦ hw (heq ▸ hc)
  rw [List.cons_append, readValue?, if_pos (.inl rfl), List.takeWhile_append_of_pos hall,
    List.dropWhile_append_of_pos hall, List.takeWhile_cons_of_neg (by decide),
    List.dropWhile_cons_of_neg (by decide), List.append_nil, hdecode]
  simp [skip?]

theorem readAttribute?_chars (a : Attribute) (cs : List Char) :
    readAttribute? (a.chars ++ cs) = some (a.pair, cs) := by
  have hchars : a.chars ++ cs =
      ' ' :: (a.name.toList ++ '=' :: ('"' :: a.written ++ '"' :: cs)) := by
    simp [Attribute.chars]
  rw [hchars, readAttribute?, if_pos (by decide), skipSpace_name_append a.isName,
    readName?_append a.isName (by decide)]
  simp only [Option.bind_eq_bind, Option.bind_some]
  rw [skipSpace_of_isSpace_eq_false (by decide), skip?, if_pos rfl, Option.bind_some,
    List.cons_append, skipSpace_of_isSpace_eq_false (by decide), ← List.cons_append,
    readValue?_append a.quotable a.decodes, Option.bind_some, String.ofList_toList]
  rfl

/-- Attributes one behind the other are read up to where none follows. -/
theorem readMany_chars (attributes : List Attribute) {cs : List Char}
    (h : readAttribute? cs = none) :
    readMany readAttribute? shortens_readAttribute? (attributes.flatMap Attribute.chars ++ cs) =
      (attributes.map Attribute.pair, cs) := by
  induction attributes with
  | nil => exact readMany_of_eq_none h
  | cons a as ih =>
    rw [List.flatMap_cons, List.append_assoc, readMany_of_eq_some (readAttribute?_chars a _), ih]
    rfl

theorem readAttribute?_of_isSpace_eq_false {c : Char} (h : isSpace c = false) (cs : List Char) :
    readAttribute? (c :: cs) = none := by
  rw [readAttribute?, if_neg (by rw [h]; exact Bool.false_ne_true)]

namespace Markup

/-! ## Tags -/

variable {name : String} {attributes : List Attribute}

/-- The name of a tag is read up to its attributes, or up to its end. -/
theorem readName?_attributes (hname : isName name.toList) {c : Char} (hc : isNameChar c = false)
    (attributes : List Attribute) (cs : List Char) :
    readName? (name.toList ++ (attributes.flatMap Attribute.chars ++ c :: cs)) =
      some (name, attributes.flatMap Attribute.chars ++ c :: cs) := by
  have hread : ∀ {d : Char} {ds : List Char}, isNameChar d = false →
      readName? (name.toList ++ d :: ds) = some (name, d :: ds) := fun hd ↦ by
    rw [readName?_append hname hd, String.ofList_toList]
  cases attributes with
  | nil => exact hread hc
  | cons a as => exact hread (by decide)

/-- The inside of a tag up to the character that ends it. -/
theorem readOpening?_attributes (hname : isName name.toList)
    (hnames : (attributes.map Attribute.name).Nodup) {c : Char} (hc : isNameChar c = false)
    (hc' : isSpace c = false) (cs : List Char) :
    readOpening? (name.toList ++ (attributes.flatMap Attribute.chars ++ c :: cs)) =
      readTagEnd? name (attributes.map Attribute.pair) (c :: cs) := by
  have hfst : (attributes.map Attribute.pair).map Prod.fst = attributes.map Attribute.name := by
    rw [List.map_map]
    rfl
  rw [readOpening?, readName?_attributes hname hc]
  simp only [Option.bind_eq_bind, Option.bind_some]
  rw [readMany_chars attributes (readAttribute?_of_isSpace_eq_false hc' cs)]
  simp only [hfst, if_pos hnames, skipSpace_of_isSpace_eq_false hc']

/-- A name is no stroke, so a tag that begins with one opens an element. -/
theorem read?_name (hname : isName name.toList) (cs : List Char) :
    read? ('<' :: (name.toList ++ cs)) = readOpening? (name.toList ++ cs) := by
  rw [read?, skip?, if_pos rfl]
  cases hchars : name.toList with
  | nil =>
    rw [hchars] at hname
    cases hname
  | cons c chars =>
    have hc : c ≠ '/' := by
      rintro rfl
      rw [hchars] at hname
      cases hname
    simp only [List.cons_append, skip?, if_neg hc]

theorem ofChars_of_next? {cs rest : List Char} {m : Markup} (h : next? cs = some (m, rest)) :
    ofChars cs = (m :: ·) <$> ofChars rest := by
  rw [ofChars, ofChars, readMany_of_eq_some h]
  simp only
  split
  · rfl
  · rfl

/-- Space is passed over. -/
theorem ofChars_space_append {space : List Char} (h : space.all isSpace) (cs : List Char) :
    ofChars (space ++ cs) = ofChars cs := by
  have hskip : skipSpace (space ++ cs) = skipSpace cs := skipSpace_append h cs
  cases hnext : next? cs with
  | none =>
    have hnext' : next? (space ++ cs) = none := by
      rwa [next?, hskip]
    rw [ofChars, ofChars, readMany_of_eq_none hnext, readMany_of_eq_none hnext']
    simp only [hskip]
  | some read =>
    have hnext' : next? (space ++ cs) = some read := by
      rwa [next?, hskip]
    rw [ofChars_of_next? hnext, ofChars_of_next? hnext']

theorem ofChars_nil : ofChars [] = some [] := by
  rw [ofChars, readMany_of_eq_none rfl]
  rfl

theorem next?_of_bracket (cs : List Char) : next? ('<' :: cs) = read? ('<' :: cs) := by
  rw [next?, skipSpace_of_isSpace_eq_false (by decide)]

section

variable (hname : isName name.toList)
include hname

theorem ofChars_opening (hnames : (attributes.map Attribute.name).Nodup) (cs : List Char) :
    ofChars ('<' :: (name.toList ++ (attributes.flatMap Attribute.chars ++ '>' :: cs))) =
      (opening name (attributes.map Attribute.pair) :: ·) <$> ofChars cs := by
  refine ofChars_of_next? ?_
  rw [next?_of_bracket, read?_name hname,
    readOpening?_attributes hname hnames (by decide) (by decide)]
  rfl

theorem ofChars_empty (hnames : (attributes.map Attribute.name).Nodup) (cs : List Char) :
    ofChars ('<' :: (name.toList ++ (attributes.flatMap Attribute.chars ++ '/' :: '>' :: cs))) =
      (empty name (attributes.map Attribute.pair) :: ·) <$> ofChars cs := by
  refine ofChars_of_next? ?_
  rw [next?_of_bracket, read?_name hname,
    readOpening?_attributes hname hnames (by decide) (by decide)]
  rfl

theorem ofChars_closing (cs : List Char) :
    ofChars ('<' :: '/' :: (name.toList ++ '>' :: cs)) = (closing name :: ·) <$> ofChars cs := by
  refine ofChars_of_next? ?_
  rw [next?_of_bracket]
  show readClosing? (name.toList ++ '>' :: cs) = some (closing name, cs)
  rw [readClosing?, readName?_append hname (by decide), String.ofList_toList]
  rfl

end

/-! ## Elements side by side -/

/-- Whether the tag is that of an element with nothing in it. -/
def IsEmpty (m : Markup) (node : Xml) : Prop :=
  ∃ name attributes, m = .empty name attributes ∧ node = .element name attributes []

/-- Elements with nothing in them are nodes one behind the other. -/
theorem nest_map {β : Type} {tag : β → Markup} {element : β → Xml}
    (h : ∀ b, IsEmpty (tag b) (element b))
    (outer : List (String × List (String × String) × List Xml)) (done : List Xml) (bs : List β)
    (ms : List Markup) :
    nest outer done (bs.map tag ++ ms) = nest outer (done ++ bs.map element) ms := by
  induction bs generalizing done with
  | nil => rw [List.map_nil, List.map_nil, List.nil_append, List.append_nil]
  | cons b bs ih =>
    obtain ⟨name, attributes, htag, helement⟩ := h b
    rw [List.map_cons, List.map_cons, List.cons_append, htag, helement, nest, ih,
      List.append_assoc]
    rfl

end Markup

end TurtleGraphics.Xml
