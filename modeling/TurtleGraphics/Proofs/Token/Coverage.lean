import TurtleGraphics.Proofs.Token.Lexemes

/-!
# Lines covered by lexemes

The tokens of a line account for every character of it: the line is blanks, then the spelling of
each token with the blanks behind it, and then what was not read, a comment or what is at fault. No
token could have been read longer where it stands. Main statements:

* `Token.Spelling.length_le_of_isPrefix`: a token that is over is the longest one that begins there;
* `Tokens.exists_lexemes`: a line falls into lexemes and a rest that explains why the reading ended;
* `Token.pulled_eq`: taking one thing after the other from a line gives its tokens, then the fault
  if there is one, and then nothing for ever;
* `Tokens.ofString_lexemes`: all of this about a line given as text.
-/

namespace TurtleGraphics

namespace Token

/-! ## The longest token -/

variable {t t' : Token} {s s' rest rest' : List Char}

/-- A token that is not over goes on: a longer one is spelled at the same place. -/
theorem Spelling.exists_longer (h : t.Spelling s) (hrest : ¬ t.Ends rest) :
    ∃ t' s' rest', Spelling t' s' ∧ s ++ rest = s' ++ rest' ∧ s.length < s'.length := by
  have hhead {p : Char → Bool} (hp : ¬ ∀ c ∈ rest.head?, p c = false) :
      ∃ c cs, rest = c :: cs ∧ p c = true := by
    cases rest with
    | nil => exact absurd (by simp) hp
    | cons c cs => exact ⟨c, cs, rfl, by simpa using hp⟩
  have hsnoc {p : Char → Bool} {cs : List Char} {c : Char} (hcs : ∀ d ∈ cs, p d) (hc : p c) :
      ∀ d ∈ cs ++ [c], p d := by
    intro d hd
    rcases List.mem_append.1 hd with hd | hd
    · exact hcs d hd
    · rwa [List.mem_singleton.1 hd]
  cases h with
  | @word c cs hc hcs =>
    obtain ⟨d, ds, rfl, hd⟩ := hhead hrest
    exact ⟨_, _, ds, .word hc (hsnoc hcs hd), by simp, by simp⟩
  | @whole c cs hc hcs =>
    by_cases hdigit : ∀ d ∈ rest.head?, d.isDigit = false
    · -- The numeral goes on with a fraction.
      have hpoint : ∃ d ds, rest = '.' :: d :: ds ∧ d.isDigit = true := by
        by_contra hnone
        refine hrest ⟨hdigit, fun d ds hds ↦ ?_⟩
        by_contra hd
        exact hnone ⟨d, ds, hds, by simpa using hd⟩
      obtain ⟨d, ds, rfl, hd⟩ := hpoint
      exact ⟨_, _, ds, .fraction hc hcs hd (List.forall_mem_nil _), by simp, by simp⟩
    · obtain ⟨d, ds, rfl, hd⟩ := hhead hdigit
      exact ⟨_, _, ds, .whole hc (hsnoc hcs hd), by simp, by simp⟩
  | @fraction c d cs ds hc hcs hd hds =>
    obtain ⟨e, es, rfl, he⟩ := hhead hrest
    exact ⟨_, _, es, .fraction hc hcs hd (hsnoc hds he), by simp, by simp⟩
  | text hquote hcs => exact absurd trivial hrest
  | symbol hsymbol => exact absurd (ends_of_symbol? hsymbol rest) hrest

/-- A token that is over is the longest one that begins where it does. -/
theorem Spelling.length_le_of_isPrefix (h : t.Spelling s) (hrest : t.Ends rest)
    (h' : t'.Spelling s') (hbegin : s' <+: s ++ rest) : s'.length ≤ s.length := by
  obtain ⟨rest', heq⟩ := hbegin
  induction hn : rest'.length using Nat.strong_induction_on generalizing t' s' rest' with
  | _ n ih =>
    subst hn
    by_cases hends : t'.Ends rest'
    · -- Both are over, and so both are what is read.
      obtain ⟨c, cs, rfl, -⟩ := h.head
      obtain ⟨c', cs', rfl, -⟩ := h'.head
      obtain ⟨rfl, htail⟩ := List.cons.inj heq
      have hread := read_spelling h' hends
      rw [show cs' ++ rest' = cs ++ rest from htail, read_spelling h hrest] at hread
      obtain ⟨-, rfl⟩ := Prod.mk.inj (Except.ok.inj hread)
      rw [List.append_cancel_right heq]
    · obtain ⟨t'', s'', rest'', h'', heq', hlt⟩ := h'.exists_longer hends
      have hlength := congrArg List.length heq'
      rw [List.length_append, List.length_append] at hlength
      exact hlt.le.trans (ih rest''.length (by omega) h'' rest'' (heq'.symm.trans heq) rfl)

/-! ## Lexemes -/

/-- A token as it stands on a line, with the blanks behind it. -/
structure Lexeme where
  token : Token
  spelling : List Char
  gap : List Char
  isSpelling : token.Spelling spelling
  isBlank_gap : ∀ c ∈ gap, Text.isBlank c

namespace Lexeme

/-- The characters of the lexeme. -/
def chars (l : Lexeme) : List Char := l.spelling ++ l.gap

/-- Whether each token is over where its spelling ends, if the lexemes stand one behind the other
and in front of `rest`. -/
def Munched : List Lexeme → List Char → Prop
  | [], _ => True
  | l :: ls, rest => l.token.Ends (l.gap ++ (ls.flatMap chars ++ rest)) ∧ Munched ls rest

theorem one_le_length_chars (l : Lexeme) : 1 ≤ l.chars.length := by
  obtain ⟨c, cs, hcs, -⟩ := l.isSpelling.head
  rw [chars, hcs, List.cons_append, List.length_cons]
  exact Nat.le_add_left 1 _

theorem length_le_length_flatMap (ls : List Lexeme) : ls.length ≤ (ls.flatMap chars).length := by
  induction ls with
  | nil => exact Nat.le_refl 0
  | cons l ls ih =>
    rw [List.flatMap_cons, List.length_append, List.length_cons]
    have := l.one_le_length_chars
    omega

section

variable {before after : List Lexeme} {l : Lexeme} {rest : List Char}

theorem Munched.ends (h : Munched (before ++ l :: after) rest) :
    l.token.Ends (l.gap ++ (after.flatMap chars ++ rest)) := by
  induction before with
  | nil => exact h.1
  | cons _ before ih => exact ih h.2

/-- No longer token begins where one of the lexemes does. -/
theorem Munched.longest (h : Munched (before ++ l :: after) rest) {t : Token} {s : List Char}
    (hs : t.Spelling s) (hbegin : s <+: l.spelling ++ (l.gap ++ (after.flatMap chars ++ rest))) :
    s.length ≤ l.spelling.length :=
  l.isSpelling.length_le_of_isPrefix h.ends hs hbegin

end

end Lexeme

/-! ## What is no token -/

/-- Why nothing can be read: an open quote, or a character that begins no token. -/
theorem cases_of_read_eq_error {c : Char} {cs : List Char} {fault : Fault}
    (h : read c cs = .error fault) :
    (fault = .unclosed c ∧ (c = '\'' ∨ c = '"') ∧ c ∉ cs) ∨
      (fault = .unexpected c ∧ ∀ t s, Spelling t s → s.head? ≠ some c) := by
  by_cases hquote : c = '\'' ∨ c = '"'
  · left
    rw [read_eq_readText hquote, readText] at h
    split at h
    · rename_i hcs
      cases h
      refine ⟨rfl, hquote, fun hc ↦ ?_⟩
      simpa using List.dropWhile_eq_nil_iff.1 hcs c hc
    · cases h
  · right
    refine ⟨?_, fun t s hs hhead ↦ ?_⟩
    · unfold read at h
      split at h
      · cases h
      · rw [if_neg hquote] at h
        split at h
        · cases h
        · split at h
          · cases h
          · cases h
            rfl
    · obtain ⟨ds, rfl⟩ := List.head?_eq_some_iff.1 hhead
      cases hs with
      | word hc _ =>
        rw [read_eq_readWord hc] at h
        cases h
      | whole hc _ | fraction hc _ _ _ =>
        rw [read_eq_readNumber hc] at h
        cases h
      | text hc _ => exact hquote hc
      | symbol hc =>
        rw [read, hc] at h
        cases h

/-! ## Taking one thing after the other -/

/-- The next token or fault on a line, if there is one, and where the reading is then. The reading
is over (`none`) at the end of the line and after a fault, and goes on with what is left
otherwise. -/
def pull : Option (List Char) → Option (Except Fault Token) × Option (List Char)
  | none => (none, none)
  | some cs =>
    match cs.dropWhile Text.isBlank with
    | [] => (none, none)
    | c :: rest =>
      if c = '#' then (none, none)
      else match read c rest with
        | .error fault => (some (.error fault), none)
        | .ok (t, after) => (some (.ok t), some after)

/-- What is taken after so many times before. -/
def pulled : Nat → Option (List Char) → Option (Except Fault Token)
  | 0, reading => (pull reading).1
  | i + 1, reading => pulled i (pull reading).2

theorem pulled_none (i : Nat) : pulled i none = none := by
  induction i with
  | zero => rfl
  | succ i ih => exact ih

end Token

namespace Tokens

/-- The tokens in order, and the fault behind them if there is one. -/
def outcomes (ts : Tokens) : List (Except Token.Fault Token) :=
  ts.toList.map .ok ++ ts.fault?.toList.map .error

theorem outcomes_cons (t : Token) (ts : Tokens) : (cons t ts).outcomes = .ok t :: ts.outcomes := rfl

/-- The first thing that is taken from a line, and where the reading is then. -/
theorem pull_some (cs : List Char) :
    (ofChars cs = finished ∧ Token.pull (some cs) = (none, none)) ∨
      (∃ fault, ofChars cs = broken fault ∧ Token.pull (some cs) = (some (.error fault), none)) ∨
        ∃ t after, ofChars cs = cons t (ofChars after) ∧
          Token.pull (some cs) = (some (.ok t), some after) := by
  rw [ofChars_eq, Token.pull]
  cases cs.dropWhile Text.isBlank with
  | nil => exact .inl ⟨rfl, rfl⟩
  | cons c rest =>
    dsimp only
    by_cases hhash : c = '#'
    · rw [if_pos hhash, if_pos hhash]
      exact .inl ⟨rfl, rfl⟩
    · rw [if_neg hhash, if_neg hhash]
      cases Token.read c rest with
      | error fault => exact .inr (.inl ⟨fault, rfl, rfl⟩)
      | ok read => exact .inr (.inr ⟨read.1, read.2, rfl, rfl⟩)

end Tokens

/-- Taking one thing after the other gives the tokens, the fault if there is one, and then
nothing. -/
theorem Token.pulled_eq (i : Nat) (cs : List Char) :
    pulled i (some cs) = (Tokens.ofChars cs).outcomes[i]? := by
  induction i generalizing cs with
  | zero =>
    rw [pulled]
    obtain ⟨hts, hpull⟩ | ⟨fault, hts, hpull⟩ | ⟨t, after, hts, hpull⟩ := Tokens.pull_some cs
    · rw [hts, hpull]
      rfl
    · rw [hts, hpull]
      rfl
    · rw [hts, hpull]
      rfl
  | succ i ih =>
    rw [pulled]
    obtain ⟨hts, hpull⟩ | ⟨fault, hts, hpull⟩ | ⟨t, after, hts, hpull⟩ := Tokens.pull_some cs
    · rw [hts, hpull, pulled_none]
      rfl
    · rw [hts, hpull, pulled_none]
      rfl
    · rw [hts, hpull, ih, Tokens.outcomes_cons, List.getElem?_cons_succ]

/-! ## Lines -/

namespace Tokens

/-- Whether `rest` explains why the reading of a line ended in front of it: it is empty or a comment
if there was no fault, and otherwise it begins with the character that is at fault. -/
def Explains (rest : List Char) : Option Token.Fault → Prop
  | none => ∀ c ∈ rest.head?, c = '#'
  | some (.unclosed quote) => (quote = '\'' ∨ quote = '"') ∧ ∃ cs, rest = quote :: cs ∧ quote ∉ cs
  | some (.unexpected c) => (∃ cs, rest = c :: cs) ∧ Text.isBlank c = false ∧ c ≠ '#' ∧
      ∀ t s, Token.Spelling t s → s.head? ≠ some c

theorem explains_of_read {c : Char} {cs : List Char} {fault : Token.Fault}
    (hblank : Text.isBlank c = false) (hhash : c ≠ '#') (h : Token.read c cs = .error fault) :
    Explains (c :: cs) (some fault) := by
  obtain ⟨rfl, hquote, hcs⟩ | ⟨rfl, hspelling⟩ := Token.cases_of_read_eq_error h
  · exact ⟨hquote, cs, rfl, hcs⟩
  · exact ⟨⟨cs, rfl⟩, hblank, hhash, hspelling⟩

/-- A line is blanks, the lexemes of its tokens, and a rest that explains why the reading ended. -/
theorem exists_lexemes (cs : List Char) : ∃ lead ls rest,
    cs = lead ++ (List.flatMap Token.Lexeme.chars ls ++ rest) ∧ (∀ c ∈ lead, Text.isBlank c) ∧
      ls.map Token.Lexeme.token = (ofChars cs).toList ∧ Token.Lexeme.Munched ls rest ∧
        Explains rest (ofChars cs).fault? := by
  generalize hts : ofChars cs = ts
  induction ts generalizing cs with
  | finished =>
    obtain ⟨lead, rest, rfl, hlead, hrest⟩ := ofChars_eq_finished_iff.1 hts
    exact ⟨lead, [], rest, rfl, hlead, rfl, trivial, hrest⟩
  | broken fault =>
    obtain ⟨lead, c, rest, rfl, hlead, hblank, hhash, hread⟩ := exists_of_ofChars_eq_broken hts
    exact ⟨lead, [], c :: rest, rfl, hlead, rfl, trivial, explains_of_read hblank hhash hread⟩
  | cons t ts ih =>
    obtain ⟨lead, s, after, rfl, hlead, hs, hends, hafter⟩ := exists_of_ofChars_eq_cons hts
    -- The blanks in front of what follows are the gap behind the token.
    obtain ⟨gap, ls, rest, rfl, hgap, htokens, hmunched, hrest⟩ := ih after hafter
    refine ⟨lead, ⟨t, s, gap, hs, hgap⟩ :: ls, rest, ?_, hlead, ?_, ⟨hends, hmunched⟩, hrest⟩
    · rw [List.flatMap_cons, Token.Lexeme.chars, List.append_assoc, List.append_assoc]
    · rw [List.map_cons, htokens, toList_cons]

/-- A line given as text accounts for all its characters. Taking one thing after the other from it
gives its tokens, no more than there are characters, then the fault if there is one, and then
nothing for ever. The text is blanks, the spellings of the tokens with the blanks behind each, and a
rest: no token goes on behind its spelling, nor is there a longer token where it stands. Without a
fault the rest is empty or a comment, and with one it begins with the quote that is not closed or
with the character that begins nothing. -/
theorem ofString_lexemes (text : String) :
    let ts := ofString text
    (∀ i, Token.pulled i (some text.toList) =
      (ts.toList.map .ok ++ ts.fault?.toList.map .error)[i]?) ∧
    ts.toList.length ≤ text.toList.length ∧
    ∃ (lead : List Char) (ls : List Token.Lexeme) (rest : List Char),
      text.toList = lead ++ (ls.flatMap (fun l ↦ l.spelling ++ l.gap) ++ rest) ∧
      (∀ c ∈ lead, Text.isBlank c) ∧
      ls.map Token.Lexeme.token = ts.toList ∧
      (∀ before l after, ls = before ++ l :: after →
        let behind := l.gap ++ (after.flatMap (fun l ↦ l.spelling ++ l.gap) ++ rest)
        l.token.Ends behind ∧
          ∀ t s, Token.Spelling t s → s <+: l.spelling ++ behind →
            s.length ≤ l.spelling.length) ∧
      (ts.fault? = none → ∀ c ∈ rest.head?, c = '#') ∧
      ∀ fault, ts.fault? = some fault →
        (∃ quote cs, fault.message = s!"no closing {quote} found" ∧ rest = quote :: cs ∧
          (quote = '\'' ∨ quote = '"') ∧ quote ∉ cs) ∨
        ∃ c cs, fault.message = s!"unexpected character {c}" ∧ rest = c :: cs ∧
          Text.isBlank c = false ∧ c ≠ '#' ∧ ∀ t s, Token.Spelling t s → s.head? ≠ some c := by
  intro ts
  obtain ⟨lead, ls, rest, htext, hlead, htokens, hmunched, hrest⟩ := exists_lexemes text.toList
  change ls.map Token.Lexeme.token = ts.toList at htokens
  change Explains rest ts.fault? at hrest
  refine ⟨fun i ↦ Token.pulled_eq i text.toList, ?_,
    lead, ls, rest, htext, hlead, htokens, ?_, ?_, ?_⟩
  · have hlength := Token.Lexeme.length_le_length_flatMap ls
    rw [← htokens, List.length_map, htext, List.length_append, List.length_append]
    omega
  · rintro before l after rfl behind
    exact ⟨hmunched.ends, fun t s ↦ hmunched.longest⟩
  · intro hfault
    rwa [hfault] at hrest
  · intro fault hfault
    rw [hfault] at hrest
    cases fault with
    | unclosed quote =>
      obtain ⟨hquote, cs, rfl, hcs⟩ := hrest
      exact .inl ⟨quote, cs, rfl, rfl, hquote, hcs⟩
    | unexpected c =>
      obtain ⟨⟨cs, rfl⟩, hblank, hhash, hspelling⟩ := hrest
      exact .inr ⟨c, cs, rfl, rfl, hblank, hhash, hspelling⟩

end Tokens

end TurtleGraphics
