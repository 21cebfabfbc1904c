import Mathlib.Data.List.Forall2
import TurtleGraphics.Proofs.Json.Literal
import TurtleGraphics.Proofs.Json.Quoting
import TurtleGraphics.Proofs.Json.Reading
import TurtleGraphics.Proofs.Json.Structure

/-!
# Documents

A document is what a JSON text says, no more and no less: its numbers are literals, and its members
stand in the order of the text. A value that is written is read back as the document of the same
structure (`Document.ofString_text`), so two values with one text have one document.

The pieces of a text are read one after another. Each is read wherever it stands (`Reads`), with
space in front and anything after it that does not go on with a number.
-/

namespace TurtleGraphics.Json

/-! ## Pieces of a text -/

/-- What does not go on with a number. -/
def Ends (rest : List Char) : Prop := ∀ c ∈ rest.head?, ¬ isNumeric c

/-- Whether `element` reads `t` as `a` wherever it stands. The first character has to tell it from
space and from the end of a list. -/
structure Reads {α : Type} (element : (cs : List Char) → Reading α cs) (t : List Char) (a : α) :
    Prop where
  head : ∃ c cs, t = c :: cs ∧ isSpace c = false ∧ c ≠ ']'
  plain {space rest : List Char} (hspace : ∀ c ∈ space, isSpace c) (hrest : Ends rest) :
    (element (space ++ (t ++ rest))).plain = .ok (a, rest)

section Pieces

variable {α : Type} {element : (cs : List Char) → Reading α cs} {space cs rest t : List Char}
  {c : Char} {a : α}

theorem skipSpace_append (h : ∀ c ∈ space, isSpace c) (cs : List Char) :
    skipSpace (space ++ cs) = skipSpace cs := List.dropWhile_append_of_pos h

theorem skipSpace_cons (h : isSpace c = false) (cs : List Char) :
    skipSpace (c :: cs) = c :: cs := List.dropWhile_cons_of_neg (by rw [h]; decide)

theorem isNumeric_of_isSpace (h : isSpace c) : isNumeric c = false := by
  simp only [isSpace, Bool.or_eq_true, decide_eq_true_eq] at h
  obtain ((rfl | rfl) | rfl) | rfl := h
  · rfl
  · rfl
  · rfl
  · rfl

theorem ends_cons (h : isNumeric c = false) (cs : List Char) : Ends (c :: cs) := by
  intro d hd
  cases hd
  rw [h]
  decide

theorem ends_append (hspace : ∀ c ∈ space, isSpace c) (h : Ends rest) : Ends (space ++ rest) := by
  cases space with
  | nil => exact h
  | cons c space => exact ends_cons (isNumeric_of_isSpace (hspace c List.mem_cons_self)) _

/-- The texts after the first one, each on a line of its own. -/
def following (space : List Char) (ts : List (List Char)) : List Char :=
  ts.flatMap fun t ↦ ',' :: (space ++ t)

theorem following_nil (space cs : List Char) : following space [] ++ cs = cs := rfl

theorem following_cons (space t : List Char) (ts : List (List Char)) (cs : List Char) :
    following space (t :: ts) ++ cs = ',' :: (space ++ (t ++ (following space ts ++ cs))) := by
  simp only [following, List.flatMap_cons, List.cons_append, List.append_assoc]

theorem ends_following (ts : List (List Char)) (h : Ends rest) :
    Ends (following space ts ++ rest) := by
  cases ts with
  | nil => exact h
  | cons t ts => exact ends_cons rfl _

/-- Texts that are read one by one are read as a list. -/
theorem plain_readItems_following {space' : List Char} {ts : List (List Char)} {as : List α}
    (hspace : ∀ c ∈ space, isSpace c) (hspace' : ∀ c ∈ space', isSpace c)
    (ht : Reads element t a) (hts : List.Forall₂ (Reads element) ts as) (rest : List Char) :
    (readItems element (space ++ (t ++ (following space ts ++ (space' ++ ']' :: rest))))).plain =
      .ok (a :: as, rest) := by
  have hclose : Ends (space' ++ ']' :: rest) := ends_append hspace' (ends_cons rfl rest)
  induction hts generalizing t a with
  | nil =>
    rw [plain_readItems, ht.plain hspace (ends_following [] hclose)]
    dsimp only
    rw [following_nil, skipSpace_append hspace', skipSpace_cons (c := ']') rfl]
    rfl
  | @cons u b us bs hu _ ih =>
    rw [plain_readItems, ht.plain hspace (ends_following (u :: us) hclose)]
    obtain ⟨c, cs, hc, hcspace, hcclose⟩ := hu.head
    have hskip : skipSpace (space ++ (u ++ (following space us ++ (space' ++ ']' :: rest)))) =
        c :: (cs ++ (following space us ++ (space' ++ ']' :: rest))) := by
      rw [skipSpace_append hspace, hc, List.cons_append, skipSpace_cons hcspace]
    dsimp only
    rw [following_cons, skipSpace_cons (c := ',') rfl]
    dsimp only
    rw [if_neg (by decide), if_pos rfl, hskip, ih hu]
    split
    · rename_i h
      cases h
    · rename_i h
      cases h
      exact absurd rfl hcclose
    · rfl

theorem plain_readList_following {space' : List Char} {ts : List (List Char)} {as : List α}
    (hspace : ∀ c ∈ space, isSpace c) (hspace' : ∀ c ∈ space', isSpace c)
    (ht : Reads element t a) (hts : List.Forall₂ (Reads element) ts as) (rest : List Char) :
    (readList element (space ++ (t ++ (following space ts ++ (space' ++ ']' :: rest))))).plain =
      .ok (a :: as, rest) := by
  obtain ⟨c, cs, hc, hcspace, hclose⟩ := ht.head
  have hskip : skipSpace (space ++ (t ++ (following space ts ++ (space' ++ ']' :: rest)))) =
      c :: (cs ++ (following space ts ++ (space' ++ ']' :: rest))) := by
    rw [skipSpace_append hspace, hc, List.cons_append, skipSpace_cons hcspace]
  rw [plain_readList, hskip]
  dsimp only
  rw [if_neg hclose]
  exact plain_readItems_following hspace hspace' ht hts rest

/-- A member as it is written. -/
def memberText (m : String × List Char) : List Char :=
  '"' :: (m.1.toList.flatMap escapeChar ++ '"' :: ':' :: ' ' :: m.2)

/-- The first member is read up to the end of its value. -/
theorem plain_readMembers_memberText (key : String) (ht : Reads element t a) (hrest : Ends rest) :
    (readMembers element
      (key.toList.flatMap escapeChar ++ '"' :: ':' :: ' ' :: (t ++ rest))).plain =
      plainAfterMember element key a rest := by
  have hplain := ht.plain (List.forall_mem_singleton.2 rfl : ∀ c ∈ [' '], isSpace c) hrest
  rw [List.singleton_append] at hplain
  rw [plain_readMembers, readString_flatMap_escapeChar]
  dsimp only
  rw [skipSpace_cons (c := ':') rfl]
  simp only [hplain]

/-- Members that are read one by one are read as those of an object. -/
theorem plain_readMembers_following {space' : List Char} {ms : List (String × List Char)}
    {ms' : List (String × α)} {key : String} (hspace : ∀ c ∈ space, isSpace c)
    (hspace' : ∀ c ∈ space', isSpace c) (ht : Reads element t a)
    (hms : List.Forall₂ (fun m m' ↦ m.1 = m'.1 ∧ Reads element m.2 m'.2) ms ms')
    (rest : List Char) :
    (readMembers element (key.toList.flatMap escapeChar ++ '"' :: ':' :: ' ' ::
      (t ++ (following space (ms.map memberText) ++ (space' ++ '\x7d' :: rest))))).plain =
      .ok ((key, a) :: ms', rest) := by
  have hclose : Ends (space' ++ '\x7d' :: rest) := ends_append hspace' (ends_cons rfl rest)
  induction hms generalizing key t a with
  | nil =>
    rw [plain_readMembers_memberText key ht (ends_following _ hclose), plainAfterMember,
      List.map_nil, following_nil, skipSpace_append hspace', skipSpace_cons (c := '\x7d') rfl]
    rfl
  | @cons m m' ms ms' hm _ ih =>
    obtain ⟨key', u⟩ := m
    obtain ⟨key'', b⟩ := m'
    obtain ⟨rfl, hu⟩ := hm
    rw [plain_readMembers_memberText key ht (ends_following _ hclose), plainAfterMember,
      List.map_cons, following_cons, skipSpace_cons (c := ',') rfl]
    dsimp only
    rw [if_neg (by decide), if_pos rfl, skipSpace_append hspace, memberText, List.cons_append,
      skipSpace_cons (c := '"') rfl]
    dsimp only
    have hnext := @ih u b key' hu
    rw [if_pos rfl, List.append_assoc]
    exact congrArg (Except.map (Prod.map ((key, a) :: ·) id)) hnext

theorem plain_readObject_following {space' : List Char} {ms : List (String × List Char)}
    {ms' : List (String × α)} (key : String) (hspace : ∀ c ∈ space, isSpace c)
    (hspace' : ∀ c ∈ space', isSpace c) (ht : Reads element t a)
    (hms : List.Forall₂ (fun m m' ↦ m.1 = m'.1 ∧ Reads element m.2 m'.2) ms ms')
    (rest : List Char) :
    (readObject element (space ++ (memberText (key, t) ++
      (following space (ms.map memberText) ++ (space' ++ '\x7d' :: rest))))).plain =
      .ok ((key, a) :: ms', rest) := by
  rw [plain_readObject, skipSpace_append hspace, memberText, List.cons_append,
    skipSpace_cons (c := '"') rfl]
  dsimp only
  rw [if_neg (by decide), if_pos rfl, List.append_assoc]
  exact plain_readMembers_following hspace hspace' ht hms rest

end Pieces

/-! ## Documents -/

/-- A JSON value as a text gives it. -/
inductive Document where
  | null
  | bool (b : Bool)
  /-- A number is the literal for it. -/
  | number (literal : String)
  | string (s : String)
  | array (items : List Document)
  | object (members : List (String × Document))
deriving Repr

namespace Document

-- Both are named, so that no proof stands inside the reader.
theorem length_le_length_cons (c : Char) (cs : List Char) : cs.length ≤ (c :: cs).length :=
  Nat.le_succ _

theorem length_cons_le_length_cons (c : Char) (cs : List Char) :
    (c :: cs).length ≤ (c :: cs).length := Nat.le_refl _

/-- Reads what has no brackets and begins with `c`. -/
def readScalar (c : Char) (cs : List Char) : Reading Document (c :: cs) :=
  if c = 'n' then readConstant null ['u', 'l', 'l'] c cs
  else if c = 't' then readConstant (bool true) ['r', 'u', 'e'] c cs
  else if c = 'f' then readConstant (bool false) ['a', 'l', 's', 'e'] c cs
  else if c = '"' then
    Reading.weaken (length_le_length_cons c cs) string
      (.ofExcept (readString cs) fun _ _ ↦ length_lt_of_readString)
  else if isNumeric c then
    Reading.weaken (length_cons_le_length_cons c cs) number
      (.ofExcept (readLiteral (c :: cs)) fun _ _ ↦ length_lt_of_readLiteral)
  else .error (.atNext .expectedValue (c :: cs))

/-- How documents are made. -/
def maker : Maker Document := ⟨readScalar, array, object⟩

/-- The document that a text is. -/
def ofString (text : String) : Except Fault Document := ofCharsWith maker text.toList

end Document

/-- The document of a value without brackets. -/
def scalarDocument : Json → Document
  | bool b => .bool b
  | number (.whole n) => .number (toString n)
  | number (.decimal x) => if x.isFinite then .number (Decimal.Layout.data.text x) else .null
  | string s => .string s
  | _ => .null

/-- What a value is as a document. A number that is not finite is `null`. -/
def document : Json → Document := fold scalarDocument .array .object

theorem document_array (vs : List Json) : document (.array vs) = .array (vs.map document) :=
  fold_array _ _ _ vs

theorem document_object (ms : List (String × Json)) :
    document (.object ms) = .object (ms.map (Prod.map id document)) := fold_object _ _ _ ms

/-- Whether no more than `depth` brackets are open at once in a value. -/
inductive Within : Nat → Json → Prop
  | null (depth : Nat) : Within depth .null
  | bool (depth : Nat) (b : Bool) : Within depth (.bool b)
  | number (depth : Nat) (n : Number) : Within depth (.number n)
  | string (depth : Nat) (s : String) : Within depth (.string s)
  | array {depth : Nat} {vs : List Json} (h : ∀ v ∈ vs, Within depth v) :
    Within (depth + 1) (.array vs)
  | object {depth : Nat} {ms : List (String × Json)} (h : ∀ m ∈ ms, Within depth m.2) :
    Within (depth + 1) (.object ms)

/-! ## Values that were written -/

section Written

variable {depth : Nat} {v : Json}

/-- What has no brackets is read by its first character. -/
theorem reads_of_scalar {c : Char} {cs : List Char} {d : Document} (hspace : isSpace c = false)
    (hlist : c ≠ '[') (hclose : c ≠ ']') (hobject : c ≠ '\x7b')
    (hscalar : ∀ rest, Ends rest → (Document.readScalar c (cs ++ rest)).plain = .ok (d, rest)) :
    Reads (readWith Document.maker depth) (c :: cs) d where
  head := ⟨c, cs, rfl, hspace, hclose⟩
  plain {space rest} hblank hrest := by
    rw [plain_readWith, skipSpace_append hblank, List.cons_append, skipSpace_cons hspace]
    dsimp only
    rw [if_neg hlist, if_neg hobject]
    exact hscalar rest hrest

theorem reads_literal {cs : List Char} (h : Literal cs) :
    Reads (readWith Document.maker depth) cs (.number (String.ofList cs)) := by
  obtain ⟨c, cs, rfl⟩ := List.exists_cons_of_ne_nil h.ne_nil
  have hc : isNumeric c := h.isNumeric c List.mem_cons_self
  have hne {d : Char} (hd : isNumeric d = false) : c ≠ d := by
    rintro rfl
    rw [hd] at hc
    cases hc
  have hspace : isSpace c = false :=
    Bool.eq_false_iff.2 fun hspace ↦ by rw [isNumeric_of_isSpace hspace] at hc; cases hc
  refine reads_of_scalar hspace (hne rfl) (hne rfl) (hne rfl) fun rest hrest ↦ ?_
  rw [Document.readScalar, if_neg (hne rfl), if_neg (hne rfl), if_neg (hne rfl), if_neg (hne rfl),
    if_pos hc, Reading.plain_weaken, Reading.plain_ofExcept, ← List.cons_append, h.read hrest]
  rfl

theorem reads_quote (s : String) :
    Reads (readWith Document.maker depth) (quote s).toList (.string s) := by
  rw [quote, String.toList_ofList]
  refine reads_of_scalar (by decide) (by decide) (by decide) (by decide) fun rest _ ↦ ?_
  have hread := readString_flatMap_escapeChar s rest
  rw [Document.readScalar, if_neg (by decide), if_neg (by decide), if_neg (by decide), if_pos rfl,
    Reading.plain_weaken, Reading.plain_ofExcept]
  change ((readString (s.toList.flatMap escapeChar ++ ['"'] ++ rest)).map _) = _
  rw [List.append_assoc, List.singleton_append, hread]
  rfl

theorem reads_null : Reads (readWith Document.maker depth) "null".toList .null :=
  reads_of_scalar (by decide) (by decide) (by decide) (by decide) fun _ _ ↦ rfl

theorem reads_true : Reads (readWith Document.maker depth) "true".toList (.bool true) :=
  reads_of_scalar (by decide) (by decide) (by decide) (by decide) fun _ _ ↦ rfl

theorem reads_false : Reads (readWith Document.maker depth) "false".toList (.bool false) :=
  reads_of_scalar (by decide) (by decide) (by decide) (by decide) fun _ _ ↦ rfl

theorem reads_number (n : Number) :
    Reads (readWith Document.maker depth) n.text.toList (document (.number n)) := by
  have hliteral {s : String} (h : Literal s.toList) :
      Reads (readWith Document.maker depth) s.toList (.number s) := by
    have hreads := @reads_literal depth _ h
    rwa [String.ofList_toList] at hreads
  cases n with
  | whole n => exact hliteral (literal_toString n)
  | decimal x =>
    have hdocument : document (.number (.decimal x)) =
        if x.isFinite then .number (Decimal.Layout.data.text x) else .null := rfl
    rw [hdocument, Number.text]
    split
    · rename_i hx
      exact hliteral (literal_data hx)
    · exact reads_null

theorem reads_array {t : List Char} {ds : List Document}
    (h : ∀ rest, (readList (readWith Document.maker depth) (t ++ rest)).plain = .ok (ds, rest)) :
    Reads (readWith Document.maker (depth + 1)) ('[' :: t) (.array ds) where
  head := ⟨'[', t, rfl, rfl, by decide⟩
  plain {space rest} hblank _ := by
    rw [plain_readWith, skipSpace_append hblank, List.cons_append, skipSpace_cons (c := '[') rfl]
    dsimp only
    rw [if_pos rfl, h rest]
    rfl

theorem reads_object {t : List Char} {ms : List (String × Document)}
    (h : ∀ rest, (readObject (readWith Document.maker depth) (t ++ rest)).plain = .ok (ms, rest)) :
    Reads (readWith Document.maker (depth + 1)) ('\x7b' :: t) (.object ms) where
  head := ⟨'\x7b', t, rfl, rfl, by decide⟩
  plain {space rest} hblank _ := by
    rw [plain_readWith, skipSpace_append hblank, List.cons_append,
      skipSpace_cons (c := '\x7b') rfl]
    dsimp only
    rw [if_neg (by decide), if_pos rfl, h rest]
    rfl

/-! ### Brackets -/

theorem isSpace_indent (n : Nat) : ∀ c ∈ (indent n).toList, isSpace c := by
  intro c h
  rw [indent, String.toList_ofList] at h
  obtain rfl | h := List.mem_cons.1 h
  · rfl
  · rw [List.eq_of_mem_replicate h]
    rfl

theorem intercalate_eq_following (space t : List Char) (ts : List (List Char)) :
    List.intercalate (',' :: space) (t :: ts) = t ++ following space ts := by
  induction ts generalizing t with
  | nil => rw [List.intercalate_singleton, following, List.flatMap_nil, List.append_nil]
  | cons u ts ih =>
    rw [List.intercalate_cons_cons, ih, ← List.append_nil (following space (u :: ts)),
      following_cons, List.append_nil, List.append_assoc, List.cons_append]

theorem toList_bracket (opening closing : String) (n : Nat) (t : String) (ts : List String) :
    (bracket opening closing n (t :: ts)).toList =
      opening.toList ++ ((indent (n + 1)).toList ++ (t.toList ++
        (following (indent (n + 1)).toList (ts.map String.toList) ++
          ((indent n).toList ++ closing.toList)))) := by
  have hseparator : ("," ++ indent (n + 1)).toList = ',' :: (indent (n + 1)).toList :=
    String.toList_append
  have hbracket : bracket opening closing n (t :: ts) =
      opening ++ indent (n + 1) ++ String.intercalate ("," ++ indent (n + 1)) (t :: ts) ++
        indent n ++ closing := rfl
  rw [hbracket]
  simp only [String.toList_append, String.toList_intercalate, hseparator, List.map_cons,
    intercalate_eq_following, List.append_assoc]

theorem toList_bracket_nil (opening closing : String) (n : Nat) :
    (bracket opening closing n []).toList = opening.toList ++ closing.toList :=
  String.toList_append

theorem itemsAt_eq_map (n : Nat) (vs : List Json) : itemsAt n vs = vs.map (textAt n) := by
  induction vs with
  | nil => rfl
  | cons v vs ih => rw [itemsAt, ih, List.map_cons]

theorem membersAt_eq_map (n : Nat) (ms : List (String × Json)) :
    membersAt n ms = ms.map fun m ↦ quote m.1 ++ ": " ++ textAt n m.2 := by
  induction ms with
  | nil => rfl
  | cons m ms ih => rw [membersAt, ih, List.map_cons]

theorem toList_member (n : Nat) (m : String × Json) :
    (quote m.1 ++ ": " ++ textAt n m.2).toList = memberText (m.1, (textAt n m.2).toList) := by
  have hcolon : ": ".toList = [':', ' '] := rfl
  rw [String.toList_append, String.toList_append, quote, String.toList_ofList, hcolon, memberText]
  simp only [List.cons_append, List.append_assoc, List.nil_append]

theorem reads_textAt_array {n : Nat} {vs : List Json}
    (h : ∀ v ∈ vs, Reads (readWith Document.maker depth) (v.textAt (n + 1)).toList v.document) :
    Reads (readWith Document.maker (depth + 1)) ((Json.array vs).textAt n).toList
      (Json.array vs).document := by
  rw [document_array, textAt, itemsAt_eq_map]
  cases vs with
  | nil =>
    rw [List.map_nil, toList_bracket_nil]
    exact reads_array fun rest ↦ rfl
  | cons v vs =>
    have hvs : List.Forall₂ (Reads (readWith Document.maker depth))
        ((vs.map (textAt (n + 1))).map String.toList) (vs.map document) := by
      rw [List.map_map, List.forall₂_map_left_iff, List.forall₂_map_right_iff, List.forall₂_same]
      exact fun v hv ↦ h v (List.mem_cons_of_mem _ hv)
    have hlist := plain_readList_following (isSpace_indent (n + 1)) (isSpace_indent n)
      (h v List.mem_cons_self) hvs
    have hopen : "[".toList = ['['] := rfl
    have hclose : "]".toList = [']'] := rfl
    rw [List.map_cons, toList_bracket, hopen, hclose, List.singleton_append, List.map_cons]
    refine reads_array fun rest ↦ ?_
    rw [List.append_assoc, List.append_assoc, List.append_assoc, List.append_assoc,
      List.singleton_append]
    exact hlist rest

theorem reads_textAt_object {n : Nat} {ms : List (String × Json)}
    (h : ∀ m ∈ ms, Reads (readWith Document.maker depth) (m.2.textAt (n + 1)).toList
      m.2.document) :
    Reads (readWith Document.maker (depth + 1)) ((Json.object ms).textAt n).toList
      (Json.object ms).document := by
  rw [document_object, textAt, membersAt_eq_map]
  cases ms with
  | nil =>
    rw [List.map_nil, toList_bracket_nil]
    exact reads_object fun rest ↦ rfl
  | cons m ms =>
    let texts := ms.map fun m ↦ (m.1, (m.2.textAt (n + 1)).toList)
    have hms : List.Forall₂
        (fun m m' ↦ m.1 = m'.1 ∧ Reads (readWith Document.maker depth) m.2 m'.2) texts
        (ms.map (Prod.map id document)) := by
      rw [List.forall₂_map_left_iff, List.forall₂_map_right_iff, List.forall₂_same]
      exact fun m hm ↦ ⟨rfl, h m (List.mem_cons_of_mem _ hm)⟩
    have hobject (rest) := plain_readObject_following m.1 (isSpace_indent (n + 1))
      (isSpace_indent n) (h m List.mem_cons_self) hms rest
    have htexts : (ms.map fun m ↦ quote m.1 ++ ": " ++ textAt (n + 1) m.2).map String.toList =
        texts.map memberText := by
      rw [List.map_map, List.map_map]
      exact List.map_congr_left fun m _ ↦ toList_member (n + 1) m
    have hopen : "\x7b".toList = ['\x7b'] := rfl
    have hclose : "\x7d".toList = ['\x7d'] := rfl
    rw [List.map_cons, toList_bracket, toList_member, htexts, hopen, hclose,
      List.singleton_append, List.map_cons]
    refine reads_object fun rest ↦ ?_
    rw [List.append_assoc, List.append_assoc, List.append_assoc, List.append_assoc,
      List.singleton_append]
    exact hobject rest

/-- A value that is written is read as its document. -/
theorem Within.reads (h : Within depth v) (n : Nat) :
    Reads (readWith Document.maker depth) (v.textAt n).toList v.document := by
  induction h generalizing n with
  | null depth => exact reads_null
  | bool depth b =>
    cases b with
    | true => exact reads_true
    | false => exact reads_false
  | number depth x => exact reads_number x
  | string depth s => exact reads_quote s
  | array _ ih => exact reads_textAt_array fun v hv ↦ ih v hv (n + 1)
  | object _ ih => exact reads_textAt_object fun m hm ↦ ih m hm (n + 1)

/-- The text of a value is its document. -/
theorem Document.ofString_text (h : Within greatestDepth v) : ofString v.text = .ok v.document := by
  have hplain : (readWith maker greatestDepth ([] ++ (v.text.toList ++ []))).plain =
      .ok (v.document, []) := (h.reads 0).plain nofun nofun
  rw [List.nil_append, List.append_nil] at hplain
  rw [ofString, ofCharsWith, hplain]
  rfl

end Written

end TurtleGraphics.Json
