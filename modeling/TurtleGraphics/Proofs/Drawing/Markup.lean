/-!
# Reading markup

A reader for XML documents that takes no more than it has to: one element with elements and text in
it, attributes between quotes, and the five references that need no declaration. Names are in ASCII,
and there are no declarations, comments, marked sections or numbered references. Space in front of
a tag or a text is layout and is passed over. What is read here is read the same by every reader of
XML, but for line ends and tabs, which are taken as they are, and for characters that no document
may hold.
-/

namespace TurtleGraphics

/-- A node of a document: an element with its attributes and the nodes in it, or text. -/
inductive Xml where
  | text (chars : String)
  | element (name : String) (attributes : List (String × String)) (children : List Xml)

namespace Xml

/-- Whether the node is an element with the given name. -/
def isNamed (name : String) : Xml → Bool
  | text _ => false
  | element name' _ _ => name' = name

/-! ## Characters and references -/

/-- Whether `c` may stand between tags, names and attributes. -/
def isSpace (c : Char) : Bool := c = ' ' || c = '\t' || c = '\n' || c = '\r'

/-- Whether a name may begin with `c`. -/
def isNameStart (c : Char) : Bool := c.isAlpha || c = '_' || c = ':'

/-- Whether `c` may stand in a name. -/
def isNameChar (c : Char) : Bool := isNameStart c || c.isDigit || c = '-' || c = '.'

/-- The text without the space at its beginning. -/
def skipSpace (cs : List Char) : List Char := cs.dropWhile isSpace

/-- The names of the references, and the characters that they stand for. -/
def entities : List (List Char × Char) :=
  [(['a', 'm', 'p'], '&'), (['l', 't'], '<'), (['g', 't'], '>'), (['q', 'u', 'o', 't'], '"'),
    (['a', 'p', 'o', 's'], '\'')]

/-- What the characters of a text or of an attribute stand for. A reference goes from `&` to `;`;
`reference` is what has been read of one. -/
def decode? : Option (List Char) → List Char → Option (List Char)
  | none, [] => some []
  | some _, [] => none
  | none, c :: cs =>
    if c = '<' then none
    else if c = '&' then decode? (some []) cs
    else (c :: ·) <$> decode? none cs
  | some reference, c :: cs =>
    if c = ';' then do
      let d ← entities.lookup reference
      (d :: ·) <$> decode? none cs
    else decode? (some (reference ++ [c])) cs

/-! ## Reading piece by piece -/

/-- What follows the character `c`, which has to come first. -/
def skip? (c : Char) : List Char → Option (List Char)
  | [] => none
  | d :: cs => if d = c then some cs else none

/-- A name, and what follows it. -/
def readName? (cs : List Char) : Option (String × List Char) :=
  match cs.takeWhile isNameChar with
  | [] => none
  | c :: name =>
    if isNameStart c then some (String.ofList (c :: name), cs.dropWhile isNameChar) else none

/-- A value between two quotes of one kind, and what follows it. -/
def readValue? : List Char → Option (String × List Char)
  | [] => none
  | quote :: cs =>
    if quote = '"' ∨ quote = '\'' then do
      let value ← decode? none (cs.takeWhile (· ≠ quote))
      let rest ← skip? quote (cs.dropWhile (· ≠ quote))
      some (String.ofList value, rest)
    else none

/-- An attribute with the space before it, and what follows it. -/
def readAttribute? : List Char → Option ((String × String) × List Char)
  | [] => none
  | c :: cs =>
    if isSpace c then do
      let (name, cs) ← readName? (skipSpace cs)
      let cs ← skip? '=' (skipSpace cs)
      let (value, cs) ← readValue? (skipSpace cs)
      some ((name, value), cs)
    else none

/-- Whether reading something leaves less to be read. -/
def Shortens {α : Type} (read? : List Char → Option (α × List Char)) : Prop :=
  ∀ ⦃cs a rest⦄, read? cs = some (a, rest) → rest.length < cs.length

/-- As much as can be read one behind the other, and what follows it. -/
def readMany {α : Type} (read? : List Char → Option (α × List Char)) (h : Shortens read?)
    (cs : List Char) : List α × List Char :=
  match hread : read? cs with
  | none => ([], cs)
  | some (a, rest) =>
    have := h hread
    (a :: (readMany read? h rest).1, (readMany read? h rest).2)
termination_by cs.length

theorem length_skipSpace_le (cs : List Char) : (skipSpace cs).length ≤ cs.length :=
  (List.dropWhile_sublist isSpace).length_le

theorem length_lt_of_skip? {c : Char} {cs rest : List Char} (h : skip? c cs = some rest) :
    rest.length < cs.length := by
  cases cs with
  | nil => cases h
  | cons d cs =>
    rw [skip?] at h
    split at h
    · cases h
      exact Nat.lt_succ_self _
    · cases h

theorem length_le_of_readName? {cs rest : List Char} {name : String}
    (h : readName? cs = some (name, rest)) : rest.length ≤ cs.length := by
  rw [readName?] at h
  split at h
  · cases h
  · split at h
    · cases h
      exact (List.dropWhile_sublist isNameChar).length_le
    · cases h

theorem length_lt_of_readValue? {cs rest : List Char} {value : String}
    (h : readValue? cs = some (value, rest)) : rest.length < cs.length := by
  cases cs with
  | nil => cases h
  | cons quote cs =>
    rw [readValue?] at h
    split at h
    · simp only [Option.bind_eq_bind, Option.bind_eq_some_iff] at h
      obtain ⟨_, -, rest', hskip, h⟩ := h
      cases h
      exact Nat.lt_succ_of_lt (Nat.lt_of_lt_of_le (length_lt_of_skip? hskip)
        (List.dropWhile_sublist _).length_le)
    · cases h

theorem shortens_readAttribute? : Shortens readAttribute? := by
  intro cs a rest h
  cases cs with
  | nil => cases h
  | cons c cs =>
    rw [readAttribute?] at h
    split at h
    · simp only [Option.bind_eq_bind, Option.bind_eq_some_iff] at h
      obtain ⟨⟨name, afterName⟩, hname, afterSign, hsign, ⟨value, afterValue⟩, hvalue, h⟩ := h
      cases h
      refine Nat.lt_succ_of_le ?_
      calc afterValue.length
          ≤ (skipSpace afterSign).length := Nat.le_of_lt (length_lt_of_readValue? hvalue)
        _ ≤ afterSign.length := length_skipSpace_le afterSign
        _ ≤ (skipSpace afterName).length := Nat.le_of_lt (length_lt_of_skip? hsign)
        _ ≤ afterName.length := length_skipSpace_le afterName
        _ ≤ (skipSpace cs).length := length_le_of_readName? hname
        _ ≤ cs.length := length_skipSpace_le cs
    · cases h

/-! ## Tags -/

/-- A tag, or the text between two tags. -/
inductive Markup where
  | text (chars : String)
  | opening (name : String) (attributes : List (String × String))
  | closing (name : String)
  /-- The tag of an element with nothing in it. -/
  | empty (name : String) (attributes : List (String × String))

namespace Markup

/-- The end of a tag that begins an element, with a stroke if the element ends there too. -/
def readTagEnd? (name : String) (attributes : List (String × String)) (cs : List Char) :
    Option (Markup × List Char) :=
  match skip? '/' cs with
  | none => (skip? '>' cs).map (opening name attributes, ·)
  | some cs => (skip? '>' cs).map (empty name attributes, ·)

/-- A tag that begins an element, after its bracket. No two attributes have the same name. -/
def readOpening? (cs : List Char) : Option (Markup × List Char) := do
  let (name, cs) ← readName? cs
  let (attributes, cs) := readMany readAttribute? shortens_readAttribute? cs
  if (attributes.map Prod.fst).Nodup then readTagEnd? name attributes (skipSpace cs) else none

/-- A tag that ends an element, after its bracket and stroke. -/
def readClosing? (cs : List Char) : Option (Markup × List Char) := do
  let (name, cs) ← readName? cs
  let cs ← skip? '>' (skipSpace cs)
  some (closing name, cs)

/-- A tag or the text before the next one, and what follows it. -/
def read? (cs : List Char) : Option (Markup × List Char) :=
  match skip? '<' cs with
  | some cs =>
    match skip? '/' cs with
    | some cs => readClosing? cs
    | none => readOpening? cs
  | none =>
    match cs.takeWhile (fun c ↦ c ≠ '<' ∧ c ≠ '>') with
    | [] => none
    | c :: chars => do
      let chars ← decode? none (c :: chars)
      some (text (String.ofList chars), cs.dropWhile fun c ↦ c ≠ '<' ∧ c ≠ '>')

/-! ### Tags come to an end -/

theorem length_readMany_le {α : Type} {read? : List Char → Option (α × List Char)}
    (h : Shortens read?) (cs : List Char) : (readMany read? h cs).2.length ≤ cs.length := by
  fun_induction readMany read? h cs with
  | case1 cs _ => exact Nat.le_refl cs.length
  | case2 cs _ _ _ hlt ih => exact Nat.le_trans ih (Nat.le_of_lt hlt)

theorem shortens_readClosing? : Shortens readClosing? := by
  intro cs m rest h
  simp only [readClosing?, Option.bind_eq_bind, Option.bind_eq_some_iff] at h
  obtain ⟨⟨name, afterName⟩, hname, afterTag, hend, h⟩ := h
  cases h
  calc rest.length
      < (skipSpace afterName).length := length_lt_of_skip? hend
    _ ≤ afterName.length := length_skipSpace_le afterName
    _ ≤ cs.length := length_le_of_readName? hname

theorem shortens_readTagEnd? (name : String) (attributes : List (String × String)) :
    Shortens (readTagEnd? name attributes) := by
  intro cs m rest h
  rw [readTagEnd?] at h
  split at h
  · obtain ⟨afterTag, hend, h⟩ := Option.map_eq_some_iff.1 h
    cases h
    exact length_lt_of_skip? hend
  · next hstroke =>
    obtain ⟨afterTag, hend, h⟩ := Option.map_eq_some_iff.1 h
    cases h
    exact Nat.lt_trans (length_lt_of_skip? hend) (length_lt_of_skip? hstroke)

theorem shortens_readOpening? : Shortens readOpening? := by
  intro cs m rest h
  simp only [readOpening?, Option.bind_eq_bind, Option.bind_eq_some_iff] at h
  obtain ⟨⟨name, afterName⟩, hname, h⟩ := h
  split at h
  · calc rest.length
        < _ := shortens_readTagEnd? _ _ h
      _ ≤ _ := length_skipSpace_le _
      _ ≤ afterName.length := length_readMany_le shortens_readAttribute? afterName
      _ ≤ cs.length := length_le_of_readName? hname
  · cases h

theorem shortens_read? : Shortens read? := by
  intro cs m rest h
  rw [read?] at h
  split at h
  · next afterBracket hbracket =>
    refine Nat.lt_trans ?_ (length_lt_of_skip? hbracket)
    split at h
    · next hstroke => exact Nat.lt_trans (shortens_readClosing? h) (length_lt_of_skip? hstroke)
    · exact shortens_readOpening? h
  · split at h
    · cases h
    · next c chars htext =>
      simp only [Option.bind_eq_bind, Option.bind_eq_some_iff] at h
      obtain ⟨chars', -, h⟩ := h
      cases h
      have hlength := congrArg List.length
        (@List.takeWhile_append_dropWhile _ (fun c ↦ c ≠ '<' ∧ c ≠ '>') cs)
      rw [htext, List.length_append, List.length_cons] at hlength
      omega

/-- The next tag or text, which space may stand before, and what follows it. -/
def next? (cs : List Char) : Option (Markup × List Char) := read? (skipSpace cs)

theorem shortens_next? : Shortens next? :=
  fun cs _ _ h ↦ Nat.lt_of_lt_of_le (shortens_read? h) (length_skipSpace_le cs)

/-- The tags and texts of a document in order. -/
def ofChars (cs : List Char) : Option (List Markup) :=
  let (markups, rest) := readMany next? shortens_next? cs
  if skipSpace rest = [] then some markups else none

/-- The nodes that tags and texts in order make up. `done` are the nodes that came before, and
`outer` are the elements that are open around them, each with the nodes before it. -/
def nest (outer : List (String × List (String × String) × List Xml)) (done : List Xml) :
    List Markup → Option (List Xml)
  | [] => if outer.isEmpty then some done else none
  | text chars :: ms => nest outer (done ++ [.text chars]) ms
  | empty name attributes :: ms => nest outer (done ++ [.element name attributes []]) ms
  | opening name attributes :: ms => nest ((name, attributes, done) :: outer) [] ms
  | closing name :: ms =>
    match outer with
    | [] => none
    | (name', attributes, before) :: outer =>
      if name = name' then nest outer (before ++ [.element name attributes done]) ms else none

end Markup

/-- The element that a document is. -/
def ofString? (s : String) : Option Xml := do
  let markups ← Markup.ofChars s.toList
  match ← Markup.nest [] [] markups with
  | [.element name attributes children] => some (.element name attributes children)
  | _ => none

example : (ofString? "<a>1 &lt; 2<b c='&amp;'/></a>").isSome := by decide +kernel
example : (ofString? "<a b=\"<\"/>").isNone ∧ (ofString? "<a b=\"&lt\"/>").isNone ∧
    (ofString? "<a b=\"1\" b=\"2\"/>").isNone ∧ (ofString? "<a></b>").isNone ∧
    (ofString? "<a/><b/>").isNone := by decide +kernel

end Xml

end TurtleGraphics
