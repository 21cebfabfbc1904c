import TurtleGraphics.Proofs.Statement.Grammar
import TurtleGraphics.Proofs.Token.Lexemes

/-!
# The count of a loop header

In the text of a loop header the digits of the count stand between the tokens that open the header
and those that close it. Main statements: every header has its count in such a place
(`LoopHeader.exists_countBetween`), and with other digits there it is a header with the same counter
and their count (`LoopHeader.CountBetween.tokens_eq`).
-/

namespace TurtleGraphics

namespace Tokens

/-- Whether the text `p` is read as the tokens `l`, whatever stands behind it. -/
def ReadsAs (p : List Char) (l : List Token) : Prop :=
  ∀ rest, ofChars (p ++ rest) = prepend l (ofChars rest)

namespace ReadsAs

variable {p blanks : List Char} {l : List Token}

theorem blanks_append (hblanks : ∀ c ∈ blanks, Text.isBlank c) (h : ReadsAs p l) :
    ReadsAs (blanks ++ p) l := by
  intro rest
  rw [List.append_assoc, ofChars_append_of_isBlank hblanks, h]

theorem append_blanks (h : ReadsAs p l) (hblanks : ∀ c ∈ blanks, Text.isBlank c) :
    ReadsAs (p ++ blanks) l := by
  intro rest
  rw [List.append_assoc, h, ofChars_append_of_isBlank hblanks]

theorem symbol {c : Char} {t : Token} (hc : Token.symbol? c = some t) : ReadsAs [c] [t] :=
  fun rest ↦ ofChars_spelling (.symbol hc) (Token.ends_of_symbol? hc rest)

/-- A word in front of something that does not go on it. -/
theorem word_append {w : String} {s : List Char} {c : Char} (hs : Token.Spelling (.word w) s)
    (hc : Token.isWordRest c = false) (h : ReadsAs (c :: p) l) :
    ReadsAs (s ++ c :: p) (.word w :: l) := by
  intro rest
  have hends : Token.Ends (.word w) (c :: p ++ rest) := by
    rintro d ⟨rfl⟩
    exact hc
  rw [List.append_assoc, ofChars_spelling hs hends, h, prepend_cons]

end ReadsAs

/-- Words with a parenthesis behind them stand in a text of their own. -/
theorem exists_readsAs {ws : List String} {cs : List Char} {ts : Tokens}
    (h : ofChars cs = prepend (ws.map .word ++ [.leftParen]) ts) :
    ∃ p rest, cs = p ++ rest ∧ p ≠ [] ∧ ReadsAs p (ws.map .word ++ [.leftParen]) ∧
      ofChars rest = ts := by
  induction ws generalizing cs with
  | nil =>
    obtain ⟨blanks, s, rest, rfl, hblanks, hs, -, hrest⟩ := exists_of_ofChars_eq_cons h
    cases hs with
    | symbol hc =>
      exact ⟨blanks ++ [_], rest, by simp, by simp, (ReadsAs.symbol hc).blanks_append hblanks,
        hrest⟩
  | cons w ws ih =>
    obtain ⟨blanks, s, rest, rfl, hblanks, hs, hends, hrest⟩ := exists_of_ofChars_eq_cons h
    obtain ⟨p, rest, rfl, hp, hreads, hts⟩ := ih hrest
    obtain ⟨c, p, rfl⟩ := List.exists_cons_of_ne_nil hp
    exact ⟨blanks ++ (s ++ c :: p), rest, by simp, by simp,
      (hreads.word_append hs (hends c rfl)).blanks_append hblanks, hts⟩

end Tokens

/-- A numeral without a point is spelled by its digits alone. -/
theorem Token.Spelling.of_digits {d : String} {s : List Char} (h : Spelling (.number d none) s) :
    s = d.toList ∧ IsDigits d := by
  cases h with
  | whole hc hcs =>
    refine ⟨String.toList_ofList.symm, fun hne ↦ ?_, ?_⟩
    · rw [← String.toList_eq_nil_iff, String.toList_ofList] at hne
      cases hne
    · rw [String.toList_ofList, List.all_cons, hc, Bool.true_and, List.all_eq_true]
      exact hcs
  | symbol hs =>
    unfold symbol? at hs
    split at hs <;> cases hs

namespace LoopHeader

/-- The tokens of a loop header before its count. -/
def opening (counter : String) : List Token :=
  ["for", counter, "in", "range"].map .word ++ [.leftParen]

/-- The tokens of a loop header with the given digits for its count. -/
def tokens (counter d : String) : List Token :=
  opening counter ++ [.number d none, .rightParen, .colon]

theorem ofList_tokens (counter d : String) :
    Tokens.ofList (tokens counter d) =
      .prepend (opening counter) (.ofList [.number d none, .rightParen, .colon]) :=
  (Tokens.prepend_ofList _ _).symm

/-- A line is a header if its tokens are those of one. -/
theorem ofString_eq_header_iff {line : Nat} {text : String} {h : LoopHeader} :
    Statement.ofString line text = .ok (.header h) ↔
      ∃ d, Tokens.ofString text = .ofList (tokens h.counter d) ∧
        h.count = min (Token.decimal d) greatestCount := by
  rw [Statement.ofString, Statement.ofTokens_eq_header_iff]
  constructor
  · rintro ⟨_, ⟨v, d⟩, htext⟩
    exact ⟨d, htext, rfl⟩
  · rintro ⟨d, htext, hcount⟩
    obtain ⟨counter, count⟩ := h
    obtain rfl : count = _ := hcount
    exact ⟨_, .loop counter d, htext⟩

/-- Whether digits between the texts `p` and `q` make a loop header with the given counter. -/
structure Frame (counter : String) (p q : List Char) : Prop where
  opening : Tokens.ReadsAs p (opening counter)
  ends : ∀ d, Token.Ends (.number d none) q
  closing : Tokens.ofChars q = .ofList [.rightParen, .colon]

theorem Frame.ofChars_eq {counter d : String} {p q : List Char} (h : Frame counter p q)
    (hd : Token.IsDigits d) :
    Tokens.ofChars (p ++ (d.toList ++ q)) = .ofList (tokens counter d) := by
  rw [h.opening, Tokens.ofChars_spelling (Token.spelling_digits hd) (h.ends d), h.closing,
    ofList_tokens]
  rfl

/-- The text of a header is a frame with the digits of its count. -/
theorem exists_frame {counter d : String} {cs : List Char}
    (h : Tokens.ofChars cs = .ofList (tokens counter d)) :
    Token.IsDigits d ∧ ∃ p q, cs = p ++ (d.toList ++ q) ∧ Frame counter p q := by
  rw [ofList_tokens] at h
  obtain ⟨p, rest, rfl, -, hreads, hrest⟩ := Tokens.exists_readsAs h
  obtain ⟨blanks, s, q, rfl, hblanks, hs, hends, hq⟩ := Tokens.exists_of_ofChars_eq_cons hrest
  obtain ⟨rfl, hd⟩ := hs.of_digits
  exact ⟨hd, p ++ blanks, q, by simp, hreads.append_blanks hblanks, fun _ ↦ hends, hq⟩

/-- A text that is read as the opening of a header, and goes on as one, ends in no comment. -/
theorem readsAs_opening {counter counter' d : String} {p rest : List Char}
    (hp : Tokens.ofChars p = .ofList (opening counter))
    (hline : Tokens.ofChars (p ++ rest) = .ofList (tokens counter' d)) :
    Tokens.ReadsAs p (opening counter) := by
  rw [← List.append_nil (opening counter), ← Tokens.prepend_ofList] at hp
  obtain ⟨p, r, rfl, -, hreads, hr⟩ := Tokens.exists_readsAs hp
  obtain ⟨blanks, r, rfl, hblanks, hr⟩ := Tokens.ofChars_eq_finished_iff.1 hr
  cases r with
  | nil =>
    rw [List.append_nil]
    exact hreads.append_blanks hblanks
  | cons c r =>
    obtain rfl : c = '#' := hr c rfl
    have hcomment : Tokens.ofChars (blanks ++ '#' :: r ++ rest) = .finished :=
      Tokens.ofChars_eq_finished_iff.2 ⟨blanks, '#' :: (r ++ rest), by simp, hblanks, by simp⟩
    rw [List.append_assoc, hreads, hcomment] at hline
    cases hline

/-- The digits `d` of a loop count, all of them, between what stands before and behind them. -/
structure CountBetween (counter p d q : String) : Prop where
  opening : Tokens.ofString p = .ofList (opening counter)
  digits : Token.IsDigits d
  closing : ∀ c ∈ q.toList.head?, c.isDigit = false

namespace CountBetween

variable {counter counter' p d d' q : String}

/-- Nothing stands between the opening and the digits. -/
theorem blanks_eq_nil (h : CountBetween counter p d q) {blanks rest : List Char}
    (hblanks : ∀ c ∈ blanks, Text.isBlank c) (hcs : d.toList ++ q.toList = blanks ++ rest) :
    blanks = [] := by
  obtain ⟨hne, hdigits⟩ := h.digits
  obtain ⟨c, cs, hd⟩ := List.exists_cons_of_ne_nil (mt String.toList_eq_nil_iff.1 hne)
  cases blanks with
  | nil => rfl
  | cons b blanks =>
    rw [hd, List.all_cons, Bool.and_eq_true] at hdigits
    rw [hd] at hcs
    obtain rfl : c = b := (List.cons.inj hcs).1
    have hblank := Token.isDigit_eq_false_of_isBlank (hblanks c List.mem_cons_self)
    rw [hblank] at hdigits
    cases hdigits.1

/-- Digits that can be replaced stand in a frame, and they are the count. -/
theorem frame (h : CountBetween counter p d q)
    (hline : Tokens.ofString (p ++ d ++ q) = .ofList (tokens counter' d')) :
    counter = counter' ∧ d = d' ∧ Frame counter p.toList q.toList := by
  rw [Tokens.ofString, String.toList_append, String.toList_append, List.append_assoc] at hline
  have hreads := readsAs_opening h.opening hline
  rw [hreads, ofList_tokens] at hline
  obtain ⟨rfl, hcount⟩ : counter = counter' ∧ Tokens.ofChars (d.toList ++ q.toList) =
      .ofList [.number d' none, .rightParen, .colon] := by
    simpa [LoopHeader.opening] using hline
  obtain ⟨blanks, s, rest, hcs, hblanks, hs, hends, hrest⟩ :=
    Tokens.exists_of_ofChars_eq_cons hcount
  obtain ⟨rfl, hd'⟩ := hs.of_digits
  obtain rfl : blanks = [] := h.blanks_eq_nil hblanks hcs
  -- Both numerals are the longest run of digits behind the opening.
  obtain ⟨htake, hdrop⟩ := Token.takeWhile_append_of_head (List.all_eq_true.1 h.digits.2) h.closing
  obtain ⟨htake', hdrop'⟩ := Token.takeWhile_append_of_head (List.all_eq_true.1 hd'.2) hends.1
  rw [List.nil_append] at hcs
  rw [hcs] at htake hdrop
  obtain rfl : d = d' := String.toList_injective (htake.symm.trans htake')
  obtain rfl : q.toList = rest := hdrop.symm.trans hdrop'
  exact ⟨rfl, rfl, hreads, fun _ ↦ hends, hrest⟩

/-- Other digits in the place of the count make a header with the same counter. -/
theorem tokens_eq (h : CountBetween counter p d q)
    (hline : Tokens.ofString (p ++ d ++ q) = .ofList (tokens counter' d))
    (hd' : Token.IsDigits d') : Tokens.ofString (p ++ d' ++ q) = .ofList (tokens counter d') := by
  obtain ⟨-, -, hframe⟩ := h.frame hline
  rw [Tokens.ofString, String.toList_append, String.toList_append, List.append_assoc]
  exact hframe.ofChars_eq hd'

end CountBetween

/-- Every header has its count in such a place. -/
theorem exists_countBetween {counter d line : String}
    (h : Tokens.ofString line = .ofList (tokens counter d)) :
    ∃ p q, line = p ++ d ++ q ∧ CountBetween counter p d q := by
  obtain ⟨hd, p, q, hcs, hframe⟩ := exists_frame h
  refine ⟨String.ofList p, String.ofList q, ?_, ?_, hd, ?_⟩
  · apply String.toList_injective
    simp [hcs]
  · have hnil : Tokens.ofChars [] = .finished :=
      Tokens.ofChars_eq_finished_iff.2 ⟨[], [], rfl, by simp, by simp⟩
    have hp := hframe.opening []
    rw [List.append_nil, hnil] at hp
    rw [Tokens.ofString, String.toList_ofList, hp]
    exact (Tokens.prepend_ofList _ []).trans (by rw [List.append_nil])
  · rw [String.toList_ofList]
    exact (hframe.ends d).1

end LoopHeader

end TurtleGraphics
