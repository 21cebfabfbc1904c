import TurtleGraphics.Proofs.Token.Coverage

/-!
# Printed tokens

Tokens are printed one behind the other with blanks between them, and a comment at the end. Where no
blank is needed to keep two of them apart it may be left out, also where a numeral ends in front of
a letter or a second point. Main statements:

* `Token.Spelling.kind_iff`: the first character of a spelling tells what kind of token it is of;
* `Token.Lexeme.munched_iff_separated`: tokens are over where they are printed exactly if there is a
  gap between those that would run together;
* `Tokens.ofString_printed`: printed tokens are read back exactly if there are these gaps.
-/

namespace TurtleGraphics

namespace Token

/-! ## Kinds of tokens -/

def isWord : Token → Bool
  | word _ => true
  | _ => false

def isNumber : Token → Bool
  | number _ _ => true
  | _ => false

/-- Whether the token is a numeral without a point. -/
def isWhole : Token → Bool
  | number _ none => true
  | _ => false

/-- Whether the token can be printed: a word and a numeral have the right characters, and a text
leaves one of the quotes to put it in. -/
def IsPrintable : Token → Prop
  | word name => IsWord name
  | number whole none => IsDigits whole
  | number whole (some fraction) => IsDigits whole ∧ IsDigits fraction
  | text content => '\'' ∉ content.toList ∨ '"' ∉ content.toList
  | _ => True

instance : DecidablePred IsPrintable
  | word name => inferInstanceAs (Decidable (IsWord name))
  | number whole none => inferInstanceAs (Decidable (IsDigits whole))
  | number _ (some _) => inferInstanceAs (Decidable (_ ∧ _))
  | text _ => inferInstanceAs (Decidable (_ ∨ _))
  | leftParen | rightParen | dot | colon | comma | minus | plus => isTrue trivial

/-- The printed token. A text is put between the quotes. -/
def print (quote : Char) : Token → List Char
  | word name => name.toList
  | number whole fraction => (numeral whole fraction).toList
  | text content => quote :: (content.toList ++ [quote])
  | leftParen => ['(']
  | rightParen => [')']
  | dot => ['.']
  | colon => [':']
  | comma => [',']
  | minus => ['-']
  | plus => ['+']

theorem print_of_symbol? {c : Char} {t : Token} (h : symbol? c = some t) (quote : Char) :
    print quote t = [c] := by
  unfold symbol? at h
  split at h <;> cases h <;> rfl

variable {t : Token} {c : Char} {cs : List Char}

/-- There is one spelling for a token and its first character. -/
theorem Spelling.eq_print (h : t.Spelling (c :: cs)) : c :: cs = t.print c := by
  cases h with
  | word hc hcs => rw [print, String.toList_ofList]
  | whole hc hcs => rw [print, numeral, String.toList_ofList]
  | fraction hc hcs hd hds => simp [print, numeral]
  | text hquote hcs => rw [print, String.toList_ofList]
  | symbol h => rw [print_of_symbol? h]

/-- A text is spelled as it is, between quotes that it does not have in it. -/
theorem spelling_text {content : String} {quote : Char} (hquote : quote = '\'' ∨ quote = '"')
    (h : quote ∉ content.toList) :
    Spelling (.text content) (quote :: (content.toList ++ [quote])) := by
  have hspelling := Spelling.text hquote h
  rwa [String.ofList_toList] at hspelling

/-- A token that can be printed has a spelling. -/
theorem IsPrintable.exists_spelling (h : t.IsPrintable) : ∃ s, t.Spelling s := by
  have hsymbol {c : Char} (h : symbol? c = some t) : ∃ s, t.Spelling s := ⟨[c], .symbol h⟩
  cases t with
  | word name => exact ⟨_, spelling_word h⟩
  | number whole fraction =>
    cases fraction with
    | none => exact ⟨_, spelling_digits h⟩
    | some fraction => exact ⟨_, spelling_fraction h.1 h.2⟩
  | text content =>
    rcases h with h | h
    · exact ⟨_, spelling_text (.inl rfl) h⟩
    · exact ⟨_, spelling_text (.inr rfl) h⟩
  | leftParen => exact @hsymbol '(' rfl
  | rightParen => exact @hsymbol ')' rfl
  | dot => exact @hsymbol '.' rfl
  | colon => exact @hsymbol ':' rfl
  | comma => exact @hsymbol ',' rfl
  | minus => exact @hsymbol '-' rfl
  | plus => exact @hsymbol '+' rfl

/-! ## The first character of a spelling -/

theorem isWordRest_of_isWordStart (h : isWordStart c) : isWordRest c := by
  simp only [isWordStart, isWordRest, Char.isAlphanum, Bool.or_eq_true] at h ⊢
  exact h.imp_left .inl

theorem isWordRest_of_isDigit (h : c.isDigit) : isWordRest c := by
  rw [isWordRest, Char.isAlphanum, h, Bool.or_true, Bool.true_or]

theorem isDigit_eq_false_of_isWordStart (h : isWordStart c) : c.isDigit = false := by
  refine Bool.eq_false_iff.2 fun hdigit ↦ ?_
  have hstart := toNat_of_isWordStart h
  have hcode := toNat_of_isDigit hdigit
  omega

/-- The first character of a spelling tells what kind of token it is of. -/
theorem Spelling.kind_iff (h : t.Spelling (c :: cs)) :
    (c.isDigit ↔ t.isNumber) ∧ (isWordRest c ↔ t.isWord ∨ t.isNumber) ∧
      (c = '.' ↔ t = .dot) ∧ (c = '.' → cs = []) := by
  have hpoint (hc : isWordRest c) : c ≠ '.' := by
    rintro rfl
    revert hc
    decide
  have hnumber (hc : c.isDigit) (w : String) (f : Option String) :
      (c.isDigit ↔ (number w f).isNumber) ∧
        (isWordRest c ↔ (number w f).isWord ∨ (number w f).isNumber) ∧
          (c = '.' ↔ number w f = .dot) ∧ (c = '.' → cs = []) := by
    have hrest := isWordRest_of_isDigit hc
    simp [hc, hrest, hpoint hrest, isNumber]
  cases h with
  | word hc hcs =>
    have hrest := isWordRest_of_isWordStart hc
    simp [isDigit_eq_false_of_isWordStart hc, hrest, hpoint hrest, isWord, isNumber]
  | whole hc hcs | fraction hc hcs hd hds => exact hnumber hc _ _
  | text hquote hcs =>
    have hother : c.isDigit = false ∧ isWordRest c = false ∧ c ≠ '.' := by
      rcases hquote with rfl | rfl <;> decide
    simp [hother, isWord, isNumber]
  | symbol h =>
    unfold symbol? at h
    split at h <;> cases h <;> decide

/-- Whether a token is over depends on its kind and on the first characters behind it. -/
theorem ends_iff {rest : List Char} : t.Ends rest ↔
    (t.isWord → ∀ c ∈ rest.head?, ¬ isWordRest c) ∧ (t.isNumber → ∀ c ∈ rest.head?, ¬ c.isDigit) ∧
      (t.isWhole → ∀ c cs, rest = '.' :: c :: cs → ¬ c.isDigit) := by
  cases t with
  | number whole fraction =>
    cases fraction with
    | none => simp [Ends, isWord, isNumber, isWhole]
    | some fraction => simp [Ends, isWord, isNumber, isWhole]
  | _ => simp [Ends, isWord, isNumber, isWhole]

/-! ## Gaps -/

namespace Lexeme

/-- Whether there is a gap where the token of `l` would go on with what stands behind it: between a
word and a word or numeral, between two numerals, and on one side at least of a point that stands
between a numeral without a fraction and another numeral. -/
structure IsApart (l : Lexeme) (behind : List Lexeme) : Prop where
  word : l.token.isWord → ∀ m ∈ behind.head?, m.token.isWord ∨ m.token.isNumber → l.gap ≠ []
  number : l.token.isNumber → ∀ m ∈ behind.head?, m.token.isNumber → l.gap ≠ []
  point : l.token.isWhole → ∀ m ∈ behind.head?, m.token = .dot →
    ∀ n ∈ behind.tail.head?, n.token.isNumber → l.gap ≠ [] ∨ m.gap ≠ []

/-- Whether there is a gap wherever two tokens would run together. -/
def Separated : List Lexeme → Prop
  | [] => True
  | l :: behind => l.IsApart behind ∧ Separated behind

instance (l : Lexeme) (behind : List Lexeme) : Decidable (l.IsApart behind) :=
  decidable_of_iff
    ((l.token.isWord → ∀ m ∈ behind.head?, m.token.isWord ∨ m.token.isNumber → l.gap ≠ []) ∧
      (l.token.isNumber → ∀ m ∈ behind.head?, m.token.isNumber → l.gap ≠ []) ∧
        (l.token.isWhole → ∀ m ∈ behind.head?, m.token = .dot →
          ∀ n ∈ behind.tail.head?, n.token.isNumber → l.gap ≠ [] ∨ m.gap ≠ []))
    ⟨fun h ↦ ⟨h.1, h.2.1, h.2.2⟩, fun h ↦ ⟨h.word, h.number, h.point⟩⟩

instance decidableSeparated : DecidablePred Separated
  | [] => isTrue trivial
  | l :: behind =>
    have := decidableSeparated behind
    inferInstanceAs (Decidable (l.IsApart behind ∧ Separated behind))

variable {ls : List Lexeme} {rest : List Char}

theorem flatMap_chars_cons (l : Lexeme) (ls : List Lexeme) (rest : List Char) :
    (l :: ls).flatMap chars ++ rest = l.spelling ++ (l.gap ++ (ls.flatMap chars ++ rest)) := by
  rw [List.flatMap_cons, chars, List.append_assoc, List.append_assoc]

/-- What the first character of some lexemes can be. -/
theorem head_iff (hrest : ∀ c ∈ rest.head?, c = '#') :
    ((∀ c ∈ (ls.flatMap chars ++ rest).head?, ¬ c.isDigit) ↔
      ∀ m ∈ ls.head?, ¬ m.token.isNumber) ∧
    ((∀ c ∈ (ls.flatMap chars ++ rest).head?, ¬ isWordRest c) ↔
      ∀ m ∈ ls.head?, ¬ (m.token.isWord ∨ m.token.isNumber)) := by
  cases ls with
  | nil =>
    have hhash : ∀ c ∈ rest.head?, ¬ c.isDigit ∧ ¬ isWordRest c := by
      intro c hc
      rw [hrest c hc]
      decide
    exact ⟨iff_of_true (fun c hc ↦ (hhash c hc).1) (by simp),
      iff_of_true (fun c hc ↦ (hhash c hc).2) (by simp)⟩
  | cons m ms =>
    obtain ⟨c, cs, hcs, -⟩ := m.isSpelling.head
    obtain ⟨hdigit, hword, -⟩ := (hcs ▸ m.isSpelling).kind_iff
    rw [flatMap_chars_cons, hcs]
    simp only [List.cons_append, List.head?_cons, Option.mem_def, Option.some.injEq, forall_eq']
    exact ⟨not_congr hdigit, not_congr hword⟩

/-- What can stand behind a point that begins some lexemes. -/
theorem point_iff (hrest : ∀ c ∈ rest.head?, c = '#') :
    (∀ c cs, ls.flatMap chars ++ rest = '.' :: c :: cs → ¬ c.isDigit) ↔
      ∀ m ∈ ls.head?, m.token = .dot → ∀ n ∈ ls.tail.head?, n.token.isNumber → m.gap ≠ [] := by
  cases ls with
  | nil =>
    refine iff_of_true (fun c cs h ↦ ?_) (by simp)
    have hpoint : '.' = '#' := hrest '.' (by rw [show rest = _ from h]; rfl)
    exact absurd hpoint (by decide)
  | cons m ms =>
    obtain ⟨c, cs, hcs, -⟩ := m.isSpelling.head
    obtain ⟨-, -, hpoint, hnil⟩ := (hcs ▸ m.isSpelling).kind_iff
    rw [flatMap_chars_cons, hcs]
    simp only [List.head?_cons, List.tail_cons, Option.mem_def, Option.some.injEq, forall_eq',
      List.cons_append, List.cons.injEq, ← hpoint]
    constructor
    · rintro h rfl n hn hnumber hgap
      obtain rfl := hnil rfl
      rw [hgap] at h
      refine (head_iff hrest).1.1 (fun d hd ↦ ?_) n hn hnumber
      obtain ⟨ds, hds⟩ := List.head?_eq_some_iff.1 hd
      exact h d ds ⟨rfl, hds⟩
    · rintro h d ds ⟨rfl, hds⟩ hd
      obtain rfl := hnil rfl
      -- The digit is a blank, or the first character of the lexeme behind the point.
      cases hgap : m.gap with
      | nil =>
        rw [hgap] at hds
        refine (head_iff hrest).1.2 (fun n hn hnumber ↦ h rfl n hn hnumber hgap) d ?_ hd
        rw [show ms.flatMap chars ++ rest = d :: ds from hds]
        rfl
      | cons b bs =>
        rw [hgap] at hds
        obtain ⟨rfl, -⟩ := List.cons.inj hds
        have hblank := isDigit_eq_false_of_isBlank (m.isBlank_gap b (hgap ▸ List.mem_cons_self))
        rw [hblank] at hd
        cases hd

/-- A token is over where it is printed exactly if it is kept apart from what stands behind it. -/
theorem ends_iff_isApart (l : Lexeme) (hrest : ∀ c ∈ rest.head?, c = '#') :
    l.token.Ends (l.gap ++ (ls.flatMap chars ++ rest)) ↔ l.IsApart ls := by
  cases hgap : l.gap with
  | cons b bs =>
    have hne : l.gap ≠ [] := by rw [hgap]; exact List.cons_ne_nil b bs
    refine iff_of_true ?_ ⟨fun _ _ _ _ ↦ hne, fun _ _ _ _ ↦ hne, fun _ _ _ _ _ _ _ ↦ .inl hne⟩
    exact ends_cons_of_isBlank l.token (l.isBlank_gap b (hgap ▸ List.mem_cons_self)) _
  | nil =>
    rw [List.nil_append, ends_iff, (head_iff hrest).1, (head_iff hrest).2, point_iff hrest]
    constructor
    · rintro ⟨hword, hnumber, hpoint⟩
      exact ⟨fun h m hm hm' ↦ absurd hm' (hword h m hm),
        fun h m hm hm' ↦ absurd hm' (hnumber h m hm),
        fun h m hm hdot n hn hn' ↦ .inr (hpoint h m hm hdot n hn hn')⟩
    · rintro ⟨hword, hnumber, hpoint⟩
      exact ⟨fun h m hm hm' ↦ hword h m hm hm' hgap, fun h m hm hm' ↦ hnumber h m hm hm' hgap,
        fun h m hm hdot n hn hn' ↦ (hpoint h m hm hdot n hn hn').resolve_left (not_not.2 hgap)⟩

theorem munched_iff_separated (hrest : ∀ c ∈ rest.head?, c = '#') :
    Munched ls rest ↔ Separated ls := by
  induction ls with
  | nil => exact Iff.rfl
  | cons l ls ih => exact and_congr (l.ends_iff_isApart hrest) ih

/-! ## Reading back -/

/-- Lexemes that are over where they stand are laid out. -/
theorem Munched.laid (h : Munched ls rest) (hrest : ∀ c ∈ rest.head?, c = '#') :
    Laid (ls.map token) (ls.flatMap chars ++ rest) := by
  induction ls with
  | nil => exact .finished hrest
  | cons l ls ih =>
    rw [flatMap_chars_cons]
    exact .cons l.spelling l.isSpelling h.1 (.append_of_isBlank l.isBlank_gap (ih h.2))

/-- A spelling at the front of a text is taken from it as a whole if its token is read. -/
theorem spelling_append_inj (l : Lexeme) {behind blanks s after : List Char}
    (heq : l.spelling ++ behind = blanks ++ (s ++ after)) (hblanks : ∀ c ∈ blanks, Text.isBlank c)
    (hs : l.token.Spelling s) : behind = after := by
  obtain ⟨c, cs, hcs, hc, -⟩ := l.isSpelling.head
  obtain ⟨d, ds, rfl, -⟩ := hs.head
  rw [hcs, List.cons_append] at heq
  cases blanks with
  | cons b bs =>
    obtain ⟨rfl, -⟩ := List.cons.inj heq
    rw [hblanks c List.mem_cons_self] at hc
    cases hc
  | nil =>
    obtain ⟨rfl, -⟩ := List.cons.inj heq
    have hl : l.token.Spelling (c :: cs) := hcs ▸ l.isSpelling
    rw [← List.cons_append, hl.eq_print, ← hs.eq_print] at heq
    exact List.append_cancel_left heq

/-- Lexemes are over where they stand if they are read as their tokens. -/
theorem munched_of_ofChars
    (h : Tokens.ofChars (ls.flatMap chars ++ rest) = .ofList (ls.map token)) : Munched ls rest := by
  induction ls with
  | nil => trivial
  | cons l ls ih =>
    rw [flatMap_chars_cons] at h
    obtain ⟨blanks, s, after, heq, hblanks, hs, hends, hafter⟩ :=
      Tokens.exists_of_ofChars_eq_cons h
    obtain rfl := l.spelling_append_inj heq hblanks hs
    rw [Tokens.ofChars_append_of_isBlank l.isBlank_gap] at hafter
    exact ⟨hends, ih hafter⟩

end Lexeme

end Token

namespace Tokens

open Token (Lexeme)

/-- The lexemes are read as their tokens exactly if there is a gap wherever two of them would run
together. -/
theorem ofChars_eq_ofList_iff_separated {lead : List Char} {ls : List Lexeme} {rest : List Char}
    (hlead : ∀ c ∈ lead, Text.isBlank c) (hrest : ∀ c ∈ rest.head?, c = '#') :
    ofChars (lead ++ (ls.flatMap Lexeme.chars ++ rest)) = ofList (ls.map Lexeme.token) ↔
      Lexeme.Separated ls := by
  rw [ofChars_append_of_isBlank hlead, ← Lexeme.munched_iff_separated hrest]
  exact ⟨Lexeme.munched_of_ofChars, fun h ↦ ofChars_laid (h.laid hrest)⟩

/-- Tokens that can be printed can be printed with any gaps. -/
theorem exists_lexemes_of_isPrintable {ts : List Token} (hts : ∀ t ∈ ts, t.IsPrintable)
    {gaps : List (List Char)} (hlength : gaps.length = ts.length)
    (hgaps : ∀ gap ∈ gaps, ∀ c ∈ gap, Text.isBlank c) :
    ∃ ls : List Lexeme, ls.map Lexeme.token = ts ∧ ls.map Lexeme.gap = gaps := by
  induction ts generalizing gaps with
  | nil => exact ⟨[], rfl, (List.eq_nil_of_length_eq_zero hlength).symm⟩
  | cons t ts ih =>
    cases gaps with
    | nil => cases hlength
    | cons gap gaps =>
      rw [List.forall_mem_cons] at hts hgaps
      obtain ⟨s, hs⟩ := hts.1.exists_spelling
      obtain ⟨ls, rfl, rfl⟩ := ih hts.2 (Nat.succ.inj hlength) hgaps.2
      exact ⟨⟨t, s, gap, hs, hgaps.1⟩ :: ls, rfl, rfl⟩

/-- Tokens are printed one behind the other, each in a spelling of its own and with blanks behind
it, and blanks in front and a comment at the end if wanted. They are read back, these tokens and no
fault, exactly if there is a gap between a word and a word or numeral behind it and between two
numerals, and on one side of a point between a numeral without a fraction and another numeral. So
all other gaps may be empty. -/
theorem ofString_printed {ts : List Token} (hts : ∀ t ∈ ts, t.IsPrintable) :
    (∀ gaps : List (List Char), gaps.length = ts.length →
      (∀ gap ∈ gaps, ∀ c ∈ gap, Text.isBlank c) →
      ∃ ls : List Lexeme, ls.map Lexeme.token = ts ∧ ls.map Lexeme.gap = gaps) ∧
    ∀ (lead : List Char) (ls : List Lexeme) (comment : List Char),
      (∀ c ∈ lead, Text.isBlank c) → ls.map Lexeme.token = ts → (∀ c ∈ comment.head?, c = '#') →
      let read := ofString
        (String.ofList (lead ++ (ls.flatMap (fun l ↦ l.spelling ++ l.gap) ++ comment)))
      read.toList = ts ∧ read.fault? = none ↔ Lexeme.Separated ls := by
  refine ⟨fun gaps ↦ exists_lexemes_of_isPrintable hts, ?_⟩
  rintro lead ls comment hlead rfl hcomment read
  rw [← ofChars_eq_ofList_iff_separated hlead hcomment]
  have hread : read = ofChars (lead ++ (ls.flatMap Lexeme.chars ++ comment)) := by
    show ofString (String.ofList _) = _
    rw [ofString, String.toList_ofList]
    rfl
  rw [← hread]
  constructor
  · rintro ⟨htokens, hfault⟩
    rw [← htokens]
    exact eq_ofList hfault
  · intro h
    rw [h]
    exact ⟨toList_ofList _, fault?_ofList _⟩

/-- No gap at all is needed behind a fraction, in front of a word and around a text. -/
theorem ofString_printed_without_gaps :
    let ts : List Token := [.number "1" (some "2"), .dot, .number "3" none, .word "fd",
      .text "it's", .number "4" none, .dot, .word "x"]
    (∀ t ∈ ts, t.IsPrintable) ∧
      (ofString "1.2.3fd\"it's\"4.x#5").toList = ts ∧
      (ofString "1.2.3fd\"it's\"4.x#5").fault? = none := by
  intro ts
  have hts : ∀ t ∈ ts, t.IsPrintable := by decide
  let bare (t : Token) (s : List Char) (h : t.Spelling s) : Lexeme := ⟨t, s, [], h, by simp⟩
  let ls : List Lexeme := [
    bare (.number "1" (some "2")) _ (Token.spelling_fraction (by decide) (by decide)),
    bare .dot ['.'] (.symbol rfl),
    bare (.number "3" none) _ (Token.spelling_digits (by decide)),
    bare (.word "fd") _ (Token.spelling_word (by decide)),
    bare (.text "it's") _ (Token.spelling_text (.inr rfl) (by decide)),
    bare (.number "4" none) _ (Token.spelling_digits (by decide)),
    bare .dot ['.'] (.symbol rfl),
    bare (.word "x") _ (Token.spelling_word (by decide))]
  have hread := ((ofString_printed hts).2 [] ls ['#', '5'] (by simp) rfl (by simp)).2 (by decide)
  exact ⟨hts, hread⟩

end Tokens

end TurtleGraphics
