import Mathlib.Data.List.TakeWhile
import TurtleGraphics.Token.Reading

/-!
# Spelled tokens

How tokens are written, apart from how they are read. Main statements:

* `Tokens.ofChars_spelling`: a spelled token is read as that token, and the reading goes on behind
  it, if what stands there does not go on the token;
* `Tokens.ofChars_laid` and `Tokens.ofChars_written`: tokens that are laid out on a line, or written
  one after the other, are read as they were;
* `Tokens.ofChars_eq_finished_iff`: there is no token at all exactly if nothing but blanks stands
  before the end or a `#`.
-/

namespace TurtleGraphics

namespace Token

/-- How a token is written. Only a text can be written in two ways, with either quote. -/
inductive Spelling : Token → List Char → Prop
  | word {c : Char} {cs : List Char} (hc : isWordStart c) (hcs : ∀ d ∈ cs, isWordRest d) :
      Spelling (.word (String.ofList (c :: cs))) (c :: cs)
  | whole {c : Char} {cs : List Char} (hc : c.isDigit) (hcs : ∀ d ∈ cs, d.isDigit) :
      Spelling (.number (String.ofList (c :: cs)) none) (c :: cs)
  | fraction {c d : Char} {cs ds : List Char} (hc : c.isDigit) (hcs : ∀ e ∈ cs, e.isDigit)
      (hd : d.isDigit) (hds : ∀ e ∈ ds, e.isDigit) :
      Spelling (.number (String.ofList (c :: cs)) (some (String.ofList (d :: ds))))
        (c :: (cs ++ '.' :: d :: ds))
  | text {quote : Char} {cs : List Char} (hquote : quote = '\'' ∨ quote = '"')
      (hcs : quote ∉ cs) : Spelling (.text (String.ofList cs)) (quote :: (cs ++ [quote]))
  | symbol {c : Char} {t : Token} (h : symbol? c = some t) : Spelling t [c]

/-- Whether the token is over where `rest` begins. A word and a numeral go on as long as they can,
and a point goes on a numeral if a digit comes next. -/
def Ends : Token → List Char → Prop
  | .word _, rest => ∀ c ∈ rest.head?, isWordRest c = false
  | .number _ none, rest =>
    (∀ c ∈ rest.head?, c.isDigit = false) ∧ ∀ d cs, rest = '.' :: d :: cs → d.isDigit = false
  | .number _ (some _), rest => ∀ c ∈ rest.head?, c.isDigit = false
  | _, _ => True

/-- A character that can stand neither in a word nor in a numeral ends every token. -/
theorem ends_cons (t : Token) {c : Char} (hc : isWordRest c = false) (hpoint : c ≠ '.')
    (rest : List Char) : Ends t (c :: rest) := by
  have hdigit : c.isDigit = false := by
    simp only [isWordRest, Char.isAlphanum, Bool.or_eq_false_iff] at hc
    exact hc.1.2
  have hhead {p : Char → Bool} (h : p c = false) : ∀ d ∈ (c :: rest).head?, p d = false := by
    rintro d ⟨rfl⟩
    exact h
  cases t with
  | word => exact hhead hc
  | number _ fraction =>
    cases fraction with
    | none => exact ⟨hhead hdigit, fun d cs h ↦ absurd (List.cons.inj h).1 hpoint⟩
    | some fraction => exact hhead hdigit
  | _ => trivial

/-- How tokens are written one after the other. Blanks may stand between them, and have to where a
token would go on. -/
inductive Written : List Token → List Char → Prop
  | nil : Written [] []
  | blank {c : Char} {ts : List Token} {cs : List Char} (hc : Text.isBlank c) (h : Written ts cs) :
      Written ts (c :: cs)
  | cons {t : Token} {ts : List Token} {rest : List Char} (cs : List Char) (ht : Spelling t cs)
      (hrest : Ends t rest) (h : Written ts rest) : Written (t :: ts) (cs ++ rest)

/-- How the tokens of a line can be laid out. Blanks may stand around and between them, and have to
where a token would go on; a text may stand in either quote; the line may end with a comment. -/
inductive Laid : List Token → List Char → Prop
  | finished {cs : List Char} (h : ∀ c ∈ cs.head?, c = '#') : Laid [] cs
  | blank {c : Char} {ts : List Token} {cs : List Char} (hc : Text.isBlank c) (h : Laid ts cs) :
      Laid ts (c :: cs)
  | cons {t : Token} {ts : List Token} {rest : List Char} (cs : List Char) (ht : Spelling t cs)
      (hrest : Ends t rest) (h : Laid ts rest) : Laid (t :: ts) (cs ++ rest)

/-- Tokens that are written one after the other are laid out without a comment. -/
theorem Written.laid {ts : List Token} {cs : List Char} (h : Written ts cs) : Laid ts cs := by
  induction h with
  | nil => exact .finished (by simp)
  | blank hc _ ih => exact .blank hc ih
  | cons cs ht hrest _ ih => exact .cons cs ht hrest ih

/-- A symbol needs no blank behind it. -/
theorem Written.symbol {c : Char} {t : Token} {ts : List Token} {cs : List Char}
    (hc : symbol? c = some t) (ht : ∀ cs, Ends t cs) (h : Written ts cs) :
    Written (t :: ts) (c :: cs) :=
  .cons [c] (.symbol hc) (ht cs) h

/-! ## What a character can begin -/

theorem toNat_of_isDigit {c : Char} (hc : c.isDigit) : 48 ≤ c.toNat ∧ c.toNat ≤ 57 :=
  Char.isDigit_iff_toNat.1 hc

theorem toNat_of_isWordStart {c : Char} (hc : isWordStart c) :
    65 ≤ c.toNat ∧ c.toNat ≤ 90 ∨ c.toNat = 95 ∨ 97 ≤ c.toNat ∧ c.toNat ≤ 122 := by
  have hupper (h : c.isUpper) : 65 ≤ c.toNat ∧ c.toNat ≤ 90 := of_decide_eq_true h
  have hlower (h : c.isLower) : 97 ≤ c.toNat ∧ c.toNat ≤ 122 := by
    have hbounds : 97 ≤ c.toNat && c.toNat ≤ 122 := h
    simpa using hbounds
  change (c.isUpper || c.isLower || c = '_') at hc
  rw [Bool.or_eq_true, Bool.or_eq_true, decide_eq_true_eq] at hc
  rcases hc with (h | h) | rfl
  · exact .inl (hupper h)
  · exact .inr (.inr (hlower h))
  · exact .inr (.inl rfl)

/-- The code points of the characters that are symbols. -/
theorem toNat_of_symbol? {c : Char} {t : Token} (h : symbol? c = some t) :
    40 ≤ c.toNat ∧ c.toNat ≤ 46 ∨ c.toNat = 58 := by
  unfold symbol? at h
  split at h
  · decide
  · decide
  · decide
  · decide
  · decide
  · decide
  · decide
  · cases h

theorem symbol?_eq_none {c : Char} (hc : c.toNat < 40 ∨ 46 < c.toNat) (hcolon : c.toNat ≠ 58) :
    symbol? c = none := by
  cases hs : symbol? c with
  | none => rfl
  | some t =>
    have := toNat_of_symbol? hs
    omega

theorem isBlank_eq_false {c : Char} (hc : 33 ≤ c.toNat) (hc' : c.toNat < 0x85) :
    Text.isBlank c = false := by
  rw [Bool.eq_false_iff]
  intro h
  simp only [Text.isBlank, Text.inRanges, Text.blankRanges, List.any_cons, List.any_nil,
    Bool.or_eq_true, Bool.and_eq_true, decide_eq_true_eq, Bool.false_eq_true, or_false] at h
  omega

/-- No token begins with a blank or with what ends the line. -/
theorem Spelling.head {t : Token} {cs : List Char} (h : Spelling t cs) :
    ∃ c rest, cs = c :: rest ∧ Text.isBlank c = false ∧ c ≠ '#' := by
  -- Every first character lies strictly between the space and U+0085, and none is U+0023.
  suffices hcode : ∃ c rest, cs = c :: rest ∧ 33 ≤ c.toNat ∧ c.toNat < 0x85 ∧ c.toNat ≠ 35 by
    obtain ⟨c, rest, rfl, hmin, hmax, hhash⟩ := hcode
    refine ⟨c, rest, rfl, isBlank_eq_false hmin hmax, ?_⟩
    rintro rfl
    exact hhash rfl
  cases h with
  | @word c cs hc _ =>
    have := toNat_of_isWordStart hc
    exact ⟨c, cs, rfl, by omega, by omega, by omega⟩
  | @whole c cs hc _ =>
    have := toNat_of_isDigit hc
    exact ⟨c, cs, rfl, by omega, by omega, by omega⟩
  | @fraction c d cs ds hc _ _ _ =>
    have := toNat_of_isDigit hc
    exact ⟨c, _, rfl, by omega, by omega, by omega⟩
  | @text quote cs hquote _ =>
    refine ⟨quote, _, rfl, ?_⟩
    rcases hquote with rfl | rfl
    · decide
    · decide
  | @symbol c t h =>
    have := toNat_of_symbol? h
    exact ⟨c, [], rfl, by omega, by omega, by omega⟩

/-! ## Names and natural numbers -/

/-- Whether `w` can be a word. -/
def IsWord (w : String) : Prop :=
  w.toList.head?.any isWordStart ∧ w.toList.all isWordRest

instance (w : String) : Decidable (IsWord w) := inferInstanceAs (Decidable (_ ∧ _))

/-- A word is spelled as it is. -/
theorem spelling_word {w : String} (h : IsWord w) : Spelling (.word w) w.toList := by
  obtain ⟨hstart, hrest⟩ := h
  obtain ⟨c, hc, hstart⟩ := Option.any_eq_true _ _ |>.1 hstart
  obtain ⟨cs, hcs⟩ := List.head?_eq_some_iff.1 hc
  rw [List.all_eq_true, hcs, List.forall_mem_cons] at hrest
  rw [← String.ofList_toList (s := w), hcs, String.toList_ofList]
  exact .word hstart hrest.2

/-- A word in front of something that does not go on it. -/
theorem Written.word {w : String} {c : Char} {ts : List Token} {cs : List Char} (hw : IsWord w)
    (hc : isWordRest c = false) (hpoint : c ≠ '.') (h : Written ts (c :: cs)) :
    Written (.word w :: ts) (w.toList ++ c :: cs) :=
  .cons _ (spelling_word hw) (ends_cons _ hc hpoint cs) h

theorem isDigit_of_mem_toString {n : Nat} {c : Char} (h : c ∈ (toString n).toList) : c.isDigit := by
  rw [Nat.toString_eq_repr, Nat.toList_repr] at h
  exact Nat.isDigit_of_mem_toDigits (by decide) (by decide) h

/-- Whether `d` can be a numeral without a point. -/
def IsDigits (d : String) : Prop := d ≠ "" ∧ d.toList.all Char.isDigit

instance (d : String) : Decidable (IsDigits d) := inferInstanceAs (Decidable (_ ∧ _))

theorem IsDigits.exists_cons {d : String} (h : IsDigits d) :
    ∃ c cs, d = String.ofList (c :: cs) ∧ c.isDigit ∧ ∀ e ∈ cs, e.isDigit := by
  obtain ⟨hne, hdigits⟩ := h
  obtain ⟨c, cs, hcs⟩ := List.exists_cons_of_ne_nil (mt String.toList_eq_nil_iff.1 hne)
  rw [List.all_eq_true, hcs, List.forall_mem_cons] at hdigits
  exact ⟨c, cs, by rw [← hcs, String.ofList_toList], hdigits⟩

/-- Digits are spelled as they are. -/
theorem spelling_digits {d : String} (h : IsDigits d) : Spelling (.number d none) d.toList := by
  obtain ⟨c, cs, rfl, hc, hcs⟩ := h.exists_cons
  rw [String.toList_ofList]
  exact .whole hc hcs

/-- Digits with a point and digits behind it are spelled as they are. -/
theorem spelling_fraction {d e : String} (hd : IsDigits d) (he : IsDigits e) :
    Spelling (.number d (some e)) (d.toList ++ '.' :: e.toList) := by
  obtain ⟨c, cs, rfl, hc, hcs⟩ := hd.exists_cons
  obtain ⟨c', cs', rfl, hc', hcs'⟩ := he.exists_cons
  rw [String.toList_ofList, String.toList_ofList]
  exact .fraction hc hcs hc' hcs'

theorem isDigits_toString (n : Nat) : IsDigits (toString n) := by
  refine ⟨fun h ↦ ?_, List.all_eq_true.2 fun c hc ↦ isDigit_of_mem_toString hc⟩
  rw [← String.toList_eq_nil_iff, Nat.toString_eq_repr, Nat.toList_repr] at h
  exact Nat.toDigits_ne_nil h

/-- A natural number is spelled by its decimal digits. -/
theorem spelling_toString (n : Nat) : Spelling (.number (toString n) none) (toString n).toList :=
  spelling_digits (isDigits_toString n)

/-- A natural number in front of a closing parenthesis. -/
theorem written_toString {ts : List Token} {cs : List Char} (n : Nat)
    (h : Written ts (')' :: cs)) :
    Written (.number (toString n) none :: ts) ((toString n).toList ++ ')' :: cs) :=
  .cons _ (spelling_toString n) (ends_cons _ (by decide) (by decide) cs) h

theorem newline_notMem_toString (n : Nat) : '\n' ∉ (toString n).toList := by
  intro h
  exact absurd (isDigit_of_mem_toString h) (by decide)

/-! ## Reading a spelling -/

theorem read_eq_readWord {c : Char} (hc : isWordStart c) (cs : List Char) :
    read c cs = .ok (readWord c cs) := by
  have hcode := toNat_of_isWordStart hc
  have hquote : ¬ (c = '\'' ∨ c = '"') := by
    rintro (rfl | rfl)
    · exact absurd hcode (by decide)
    · exact absurd hcode (by decide)
  have hdigit : ¬ c.isDigit := by
    intro hd
    have := toNat_of_isDigit hd
    omega
  rw [read, symbol?_eq_none (by omega) (by omega)]
  dsimp only
  rw [if_neg hquote, if_neg hdigit, if_pos hc]

theorem read_eq_readNumber {c : Char} (hc : c.isDigit) (cs : List Char) :
    read c cs = .ok (readNumber c cs) := by
  have hcode := toNat_of_isDigit hc
  have hquote : ¬ (c = '\'' ∨ c = '"') := by
    rintro (rfl | rfl)
    · exact absurd hcode (by decide)
    · exact absurd hcode (by decide)
  rw [read, symbol?_eq_none (by omega) (by omega)]
  dsimp only
  rw [if_neg hquote, if_pos hc]

theorem read_eq_readText {c : Char} (hc : c = '\'' ∨ c = '"') (cs : List Char) :
    read c cs = readText c cs := by
  rcases hc with rfl | rfl
  · rfl
  · rfl

theorem takeWhile_append_of_head {p : Char → Bool} {cs rest : List Char} (hcs : ∀ c ∈ cs, p c)
    (hrest : ∀ c ∈ rest.head?, p c = false) :
    (cs ++ rest).takeWhile p = cs ∧ (cs ++ rest).dropWhile p = rest := by
  rw [List.takeWhile_append_of_pos hcs, List.dropWhile_append_of_pos hcs]
  cases rest with
  | nil => simp
  | cons c rest => simp [hrest c rfl]

theorem readWord_append {c : Char} {cs rest : List Char} (hcs : ∀ d ∈ cs, isWordRest d)
    (hrest : ∀ d ∈ rest.head?, isWordRest d = false) :
    readWord c (cs ++ rest) = (.word (String.ofList (c :: cs)), rest) := by
  obtain ⟨htake, hdrop⟩ := takeWhile_append_of_head hcs hrest
  rw [readWord, htake, hdrop]

theorem readNumber_append {c : Char} {cs rest : List Char} (hcs : ∀ d ∈ cs, d.isDigit)
    (hrest : ∀ d ∈ rest.head?, d.isDigit = false)
    (hpoint : ∀ d cs, rest = '.' :: d :: cs → d.isDigit = false) :
    readNumber c (cs ++ rest) = (.number (String.ofList (c :: cs)) none, rest) := by
  obtain ⟨htake, hdrop⟩ := takeWhile_append_of_head hcs hrest
  rw [readNumber, htake, hdrop]
  split
  · rename_i d rest
    rw [if_neg (by simp [hpoint d rest rfl])]
  · rfl

theorem readNumber_append_point {c d : Char} {cs ds rest : List Char} (hcs : ∀ e ∈ cs, e.isDigit)
    (hd : d.isDigit) (hds : ∀ e ∈ ds, e.isDigit) (hrest : ∀ e ∈ rest.head?, e.isDigit = false) :
    readNumber c (cs ++ '.' :: d :: (ds ++ rest)) =
      (.number (String.ofList (c :: cs)) (some (String.ofList (d :: ds))), rest) := by
  have hpoint : ∀ e ∈ ('.' :: d :: (ds ++ rest)).head?, e.isDigit = false := by
    rintro e ⟨rfl⟩
    rfl
  obtain ⟨htake, hdrop⟩ := takeWhile_append_of_head hcs hpoint
  obtain ⟨htake', hdrop'⟩ := takeWhile_append_of_head hds hrest
  rw [readNumber, htake, hdrop]
  simp only [hd, if_true, htake', hdrop']

theorem readText_append {quote : Char} {cs : List Char} (hcs : quote ∉ cs) (rest : List Char) :
    readText quote (cs ++ quote :: rest) = .ok (.text (String.ofList cs), rest) := by
  have hopen : ∀ c ∈ cs, decide (c ≠ quote) := by
    intro c hc
    exact decide_eq_true (ne_of_mem_of_not_mem hc hcs)
  have hclose : ∀ c ∈ (quote :: rest).head?, decide (c ≠ quote) = false := by simp
  obtain ⟨htake, hdrop⟩ := takeWhile_append_of_head hopen hclose
  rw [readText, htake, hdrop]

/-- A spelling is read as its token and taken as a whole, if the token is over behind it. -/
theorem read_spelling {t : Token} {c : Char} {cs rest : List Char} (h : Spelling t (c :: cs))
    (hrest : Ends t rest) : read c (cs ++ rest) = .ok (t, rest) := by
  cases h with
  | word hc hcs => rw [read_eq_readWord hc, readWord_append hcs hrest]
  | whole hc hcs => rw [read_eq_readNumber hc, readNumber_append hcs hrest.1 hrest.2]
  | fraction hc hcs hd hds =>
    rw [read_eq_readNumber hc, List.append_assoc, List.cons_append, List.cons_append,
      readNumber_append_point hcs hd hds hrest]
  | text hquote hcs =>
    rw [read_eq_readText hquote, List.append_assoc, List.singleton_append, readText_append hcs]
  | symbol hs =>
    rw [read, hs]
    rfl

end Token

namespace Tokens

/-! ## Reading a line -/

/-- What is read after the blanks: nothing, a token and what follows it, or a fault. -/
theorem ofChars_eq (cs : List Char) :
    ofChars cs = match cs.dropWhile Text.isBlank with
      | [] => finished
      | c :: rest =>
        if c = '#' then finished
        else match Token.read c rest with
          | .error fault => broken fault
          | .ok (t, after) => cons t (ofChars after) := by
  rw [ofChars]
  split
  · rename_i hcs
    simp only [hcs]
  · rename_i c rest hcs
    simp only [hcs]
    split
    · rfl
    · split
      · rename_i fault hread
        simp only [hread]
      · rename_i t after hread
        simp only [hread]

/-- Blanks before a token are passed over. -/
theorem ofChars_append_of_isBlank {blanks : List Char} (h : ∀ c ∈ blanks, Text.isBlank c)
    (cs : List Char) : ofChars (blanks ++ cs) = ofChars cs := by
  rw [ofChars_eq, ofChars_eq cs, List.dropWhile_append_of_pos h]

/-- A spelled token that is over where the rest begins is read, and then the rest. -/
theorem ofChars_spelling {t : Token} {cs rest : List Char} (h : t.Spelling cs)
    (hrest : t.Ends rest) : ofChars (cs ++ rest) = cons t (ofChars rest) := by
  obtain ⟨c, cs, rfl, hblank, hhash⟩ := h.head
  rw [ofChars_eq, List.cons_append, List.dropWhile_cons_of_neg (by simp [hblank])]
  dsimp only
  rw [if_neg hhash, Token.read_spelling h hrest]

/-- There is no token exactly if nothing but blanks stands before the end or a `#`. -/
theorem ofChars_eq_finished_iff {cs : List Char} :
    ofChars cs = finished ↔
      ∃ blanks rest, cs = blanks ++ rest ∧ (∀ c ∈ blanks, Text.isBlank c) ∧
        ∀ c ∈ rest.head?, c = '#' := by
  constructor
  · intro h
    refine ⟨cs.takeWhile Text.isBlank, cs.dropWhile Text.isBlank,
      List.takeWhile_append_dropWhile.symm, fun c hc ↦ List.mem_takeWhile_imp hc, ?_⟩
    rw [ofChars_eq] at h
    intro c hc
    cases hcs : cs.dropWhile Text.isBlank with
    | nil => simp [hcs] at hc
    | cons d rest =>
      obtain rfl : d = c := by simpa [hcs] using hc
      rw [hcs] at h
      dsimp only at h
      split at h
      · assumption
      · split at h
        · cases h
        · cases h
  · rintro ⟨blanks, rest, rfl, hblanks, hrest⟩
    rw [ofChars_append_of_isBlank hblanks, ofChars_eq]
    cases rest with
    | nil => rfl
    | cons c rest =>
      obtain rfl : c = '#' := hrest c rfl
      rfl

/-- The tokens of a line are those that it was laid out from. -/
theorem ofChars_laid {ts : List Token} {cs : List Char} (h : Token.Laid ts cs) :
    ofChars cs = ofList ts := by
  induction h with
  | @finished cs hcs => exact ofChars_eq_finished_iff.2 ⟨[], cs, rfl, by simp, hcs⟩
  | @blank c ts cs hc _ ih =>
    rw [← ih]
    exact @ofChars_append_of_isBlank [c] (by simpa using hc) cs
  | cons cs ht hrest _ ih => rw [ofChars_spelling ht hrest, ih, ofList_cons]

/-- Tokens that are written one after the other are read, and nothing else. -/
theorem ofChars_written {ts : List Token} {cs : List Char} (h : Token.Written ts cs) :
    ofChars cs = ofList ts :=
  ofChars_laid h.laid

end Tokens

end TurtleGraphics
