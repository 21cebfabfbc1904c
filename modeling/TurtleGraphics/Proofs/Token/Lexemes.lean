import TurtleGraphics.Proofs.Token.Spelling

/-!
# The lexemes of a line

A token that is read was written where it is read: the text falls into blanks, a spelling of the
token and a rest that does not go on it. Main statements:

* `Token.exists_spelling_of_read` and `Tokens.exists_of_ofChars_eq_cons`: the lexeme of a token;
* `Tokens.ofChars_trim`: the blanks around a line make no difference to its tokens;
* `Tokens.ofChars_eq_ofList_iff`: in which ways a line can hold given tokens and nothing else.
-/

namespace TurtleGraphics

namespace Token

/-- A symbol is over as soon as it is read. -/
theorem ends_of_symbol? {c : Char} {t : Token} (h : symbol? c = some t) (rest : List Char) :
    Ends t rest := by
  unfold symbol? at h
  split at h <;> cases h <;> trivial

theorem head?_dropWhile {p : Char → Bool} {cs : List Char} :
    ∀ c ∈ (cs.dropWhile p).head?, p c = false := by
  intro c hc
  have hne := List.head?_dropWhile_not p cs
  rw [Option.mem_def.1 hc] at hne
  exact hne

theorem exists_spelling_of_readWord {c : Char} {cs rest : List Char} {t : Token}
    (hc : isWordStart c) (h : readWord c cs = (t, rest)) :
    ∃ s, c :: cs = s ++ rest ∧ Spelling t s ∧ Ends t rest := by
  obtain ⟨rfl, rfl⟩ := Prod.mk.inj h
  refine ⟨c :: cs.takeWhile isWordRest, ?_, .word hc fun d hd ↦ List.mem_takeWhile_imp hd,
    head?_dropWhile⟩
  rw [List.cons_append, List.takeWhile_append_dropWhile]

theorem exists_spelling_of_readNumber {c : Char} {cs rest : List Char} {t : Token}
    (hc : c.isDigit) (h : readNumber c cs = (t, rest)) :
    ∃ s, c :: cs = s ++ rest ∧ Spelling t s ∧ Ends t rest := by
  have hwhole : ∀ d ∈ cs.takeWhile Char.isDigit, d.isDigit := fun d hd ↦ List.mem_takeWhile_imp hd
  have hcs : cs = cs.takeWhile Char.isDigit ++ cs.dropWhile Char.isDigit :=
    List.takeWhile_append_dropWhile.symm
  have hhead : ∀ d ∈ (cs.dropWhile Char.isDigit).head?, d.isDigit = false := head?_dropWhile
  -- Without a fraction the rest is what stands behind the digits, and no fraction begins there.
  have hbare (hpoint : ∀ d ds, cs.dropWhile Char.isDigit = '.' :: d :: ds → d.isDigit = false) :
      ∃ s, c :: cs = s ++ cs.dropWhile Char.isDigit ∧
        Spelling (.number (String.ofList (c :: cs.takeWhile Char.isDigit)) none) s ∧
        Ends (.number (String.ofList (c :: cs.takeWhile Char.isDigit)) none)
          (cs.dropWhile Char.isDigit) :=
    ⟨c :: cs.takeWhile Char.isDigit, congrArg (c :: ·) hcs, .whole hc hwhole, hhead, hpoint⟩
  unfold readNumber at h
  simp only at h
  split at h
  · rename_i d ds hds
    split at h
    · rename_i hd
      obtain ⟨rfl, rfl⟩ := Prod.mk.inj h
      refine ⟨c :: (cs.takeWhile Char.isDigit ++ '.' :: d :: ds.takeWhile Char.isDigit), ?_,
        .fraction hc hwhole hd fun e he ↦ List.mem_takeWhile_imp he, head?_dropWhile⟩
      rw [List.cons_append, List.append_assoc, List.cons_append, List.cons_append,
        List.takeWhile_append_dropWhile, ← hds, ← hcs]
    · rename_i hd
      obtain ⟨rfl, rfl⟩ := Prod.mk.inj h
      rw [← hds]
      refine hbare fun e es he ↦ ?_
      rw [hds] at he
      cases he
      simpa using hd
  · rename_i hds
    obtain ⟨rfl, rfl⟩ := Prod.mk.inj h
    exact hbare fun d ds hd ↦ absurd hd (hds d ds)

theorem exists_spelling_of_readText {quote : Char} {cs rest : List Char} {t : Token}
    (hquote : quote = '\'' ∨ quote = '"') (h : readText quote cs = .ok (t, rest)) :
    ∃ s, quote :: cs = s ++ rest ∧ Spelling t s ∧ Ends t rest := by
  unfold readText at h
  split at h
  · cases h
  · rename_i d ds hds
    cases h
    obtain rfl : d = quote := by
      have hd := @head?_dropWhile (· ≠ quote) cs d (by rw [hds]; rfl)
      simpa using hd
    refine ⟨d :: (cs.takeWhile (· ≠ d) ++ [d]), ?_, .text hquote ?_, trivial⟩
    · rw [List.cons_append, List.append_assoc, List.singleton_append, ← hds,
        List.takeWhile_append_dropWhile]
    · intro hd
      simpa using List.mem_takeWhile_imp hd

/-- What is read as a token is a spelling of it, and the token is over behind it. -/
theorem exists_spelling_of_read {c : Char} {cs rest : List Char} {t : Token}
    (h : read c cs = .ok (t, rest)) : ∃ s, c :: cs = s ++ rest ∧ Spelling t s ∧ Ends t rest := by
  unfold read at h
  split at h
  · rename_i t' ht
    cases h
    exact ⟨[c], rfl, .symbol ht, ends_of_symbol? ht _⟩
  · split at h
    · rename_i hquote
      exact exists_spelling_of_readText hquote h
    · split at h
      · rename_i hdigit
        exact exists_spelling_of_readNumber hdigit (Except.ok.inj h)
      · split at h
        · rename_i hword
          exact exists_spelling_of_readWord hword (Except.ok.inj h)
        · cases h

/-! ## Blanks behind a token -/

theorem isWordStart_or_isDigit_of_isWordRest {c : Char} (h : isWordRest c) :
    isWordStart c ∨ c.isDigit := by
  simp only [isWordRest, isWordStart, Char.isAlphanum, Bool.or_eq_true] at h ⊢
  rcases h with (halpha | hdigit) | hline
  · exact .inl (.inl halpha)
  · exact .inr hdigit
  · exact .inl (.inr hline)

theorem isWordRest_eq_false_of_isBlank {c : Char} (h : Text.isBlank c) : isWordRest c = false := by
  refine Bool.eq_false_iff.2 fun hc ↦ ?_
  have hcode : 33 ≤ c.toNat ∧ c.toNat < 0x85 := by
    rcases isWordStart_or_isDigit_of_isWordRest hc with hc | hc
    · have := toNat_of_isWordStart hc
      omega
    · have := toNat_of_isDigit hc
      omega
  rw [isBlank_eq_false hcode.1 hcode.2] at h
  cases h

theorem isDigit_eq_false_of_isBlank {c : Char} (h : Text.isBlank c) : c.isDigit = false := by
  have hrest := isWordRest_eq_false_of_isBlank h
  simp only [isWordRest, Char.isAlphanum, Bool.or_eq_false_iff] at hrest
  exact hrest.1.2

theorem ends_nil (t : Token) : Ends t [] := by
  cases t with
  | number _ fraction => cases fraction <;> simp [Ends]
  | _ => simp [Ends]

/-- A blank ends every token. -/
theorem ends_cons_of_isBlank (t : Token) {c : Char} (hc : Text.isBlank c) (rest : List Char) :
    Ends t (c :: rest) :=
  ends_cons t (isWordRest_eq_false_of_isBlank hc) (by rintro rfl; revert hc; decide) rest

/-- A token that is over stays so if blanks are put at the end of the text. -/
theorem Ends.append_isBlank {t : Token} {rest blanks : List Char} (h : Ends t rest)
    (hblanks : ∀ c ∈ blanks, Text.isBlank c) : Ends t (rest ++ blanks) := by
  cases rest with
  | nil =>
    cases blanks with
    | nil => exact ends_nil t
    | cons c blanks => exact ends_cons_of_isBlank t (hblanks c List.mem_cons_self) blanks
  | cons c rest =>
    cases t with
    | number _ fraction =>
      cases fraction with
      | some fraction => exact h
      | none =>
        refine ⟨h.1, fun d cs hd ↦ ?_⟩
        cases rest with
        | nil =>
          -- The digit that would go on the numeral is one of the blanks.
          obtain ⟨-, rfl⟩ := List.cons.inj hd
          exact isDigit_eq_false_of_isBlank (hblanks d List.mem_cons_self)
        | cons e rest =>
          simp only [List.cons_append, List.cons.injEq] at hd
          exact h.2 d rest (by rw [hd.1, hd.2.1])
    | _ => exact h

/-- Blanks close no quote. -/
theorem readText_append_blanks {quote : Char} {cs blanks : List Char} {fault : Fault}
    (hquote : quote = '\'' ∨ quote = '"') (hblanks : ∀ c ∈ blanks, Text.isBlank c)
    (h : readText quote cs = .error fault) : readText quote (cs ++ blanks) = .error fault := by
  have hopen : ∀ c ∈ blanks, decide (c ≠ quote) = true := by
    intro c hc
    refine decide_eq_true ?_
    rintro rfl
    have hblank := hblanks c hc
    rcases hquote with rfl | rfl
    · revert hblank
      decide
    · revert hblank
      decide
  unfold readText at h ⊢
  split at h
  · rename_i hcs
    rw [List.dropWhile_append, hcs, List.isEmpty_nil, if_pos rfl,
      List.dropWhile_eq_nil_iff.2 hopen]
    exact h
  · cases h

/-- What is no token does not become one if blanks are put at the end of the text. -/
theorem read_append_blanks {c : Char} {cs blanks : List Char} {fault : Fault}
    (hblanks : ∀ c ∈ blanks, Text.isBlank c) (h : read c cs = .error fault) :
    read c (cs ++ blanks) = .error fault := by
  unfold read at h ⊢
  split at h
  · cases h
  · split at h
    · rename_i hquote
      rw [if_pos hquote, readText_append_blanks hquote hblanks h]
    · rename_i hquote
      rw [if_neg hquote]
      split at h
      · cases h
      · rename_i hdigit
        rw [if_neg hdigit]
        split at h
        · cases h
        · rename_i hword
          rw [if_neg hword]
          exact h

end Token

namespace Tokens

/-- A token at the front was written there, with blanks before it. -/
theorem exists_of_ofChars_eq_cons {cs : List Char} {t : Token} {ts : Tokens}
    (h : ofChars cs = cons t ts) :
    ∃ blanks s rest, cs = blanks ++ (s ++ rest) ∧ (∀ c ∈ blanks, Text.isBlank c) ∧
      t.Spelling s ∧ t.Ends rest ∧ ofChars rest = ts := by
  rw [ofChars_eq] at h
  split at h
  · cases h
  · rename_i c rest hcs
    split at h
    · cases h
    · split at h
      · cases h
      · rename_i t' after hread
        cases h
        obtain ⟨s, hs, hspelling, hends⟩ := Token.exists_spelling_of_read hread
        refine ⟨cs.takeWhile Text.isBlank, s, after, ?_, fun c hc ↦ List.mem_takeWhile_imp hc,
          hspelling, hends, rfl⟩
        rw [← hs, ← hcs, List.takeWhile_append_dropWhile]

/-- A fault is shown by the first character behind the blanks. -/
theorem exists_of_ofChars_eq_broken {cs : List Char} {fault : Token.Fault}
    (h : ofChars cs = broken fault) :
    ∃ blanks c rest, cs = blanks ++ c :: rest ∧ (∀ c ∈ blanks, Text.isBlank c) ∧
      Text.isBlank c = false ∧ c ≠ '#' ∧ Token.read c rest = .error fault := by
  rw [ofChars_eq] at h
  split at h
  · cases h
  · rename_i c rest hcs
    split at h
    · cases h
    · rename_i hhash
      split at h
      · rename_i fault' hread
        cases h
        refine ⟨cs.takeWhile Text.isBlank, c, rest, ?_, fun c hc ↦ List.mem_takeWhile_imp hc,
          Token.head?_dropWhile c (by rw [hcs]; rfl), hhash, hread⟩
        rw [← hcs, List.takeWhile_append_dropWhile]
      · cases h

/-- Blanks at the end of a line make no difference to its tokens. -/
theorem ofChars_append_blanks {blanks : List Char} (h : ∀ c ∈ blanks, Text.isBlank c)
    (cs : List Char) : ofChars (cs ++ blanks) = ofChars cs := by
  generalize hts : ofChars cs = ts
  induction ts generalizing cs with
  | finished =>
    obtain ⟨before, rest, rfl, hbefore, hrest⟩ := ofChars_eq_finished_iff.1 hts
    rw [ofChars_eq_finished_iff]
    cases rest with
    | nil =>
      refine ⟨before ++ blanks, [], by simp, fun c hc ↦ ?_, by simp⟩
      rcases List.mem_append.1 hc with hc | hc
      · exact hbefore c hc
      · exact h c hc
    | cons c rest => exact ⟨before, c :: rest ++ blanks, by simp, hbefore, hrest⟩
  | broken fault =>
    obtain ⟨before, c, rest, rfl, hbefore, hc, hhash, hread⟩ := exists_of_ofChars_eq_broken hts
    rw [List.append_assoc, ofChars_append_of_isBlank hbefore, ofChars_eq, List.cons_append,
      List.dropWhile_cons_of_neg (by simp [hc])]
    dsimp only
    rw [if_neg hhash, Token.read_append_blanks h hread]
  | cons t ts ih =>
    obtain ⟨before, s, rest, rfl, hbefore, hs, hends, hrest⟩ := exists_of_ofChars_eq_cons hts
    rw [List.append_assoc, List.append_assoc, ofChars_append_of_isBlank hbefore,
      ofChars_spelling hs (hends.append_isBlank h), ih rest hrest]

/-- The blanks around a line make no difference to its tokens. -/
theorem ofChars_trim (cs : List Char) : ofChars (Text.trim cs) = ofChars cs := by
  obtain ⟨before, after, hcs, hbefore, hafter⟩ := Text.exists_trim cs
  calc
    ofChars (Text.trim cs) = ofChars (before ++ Text.trim cs) :=
      (ofChars_append_of_isBlank hbefore _).symm
    _ = ofChars (before ++ Text.trim cs ++ after) := (ofChars_append_blanks hafter _).symm
    _ = ofChars cs := congrArg ofChars hcs.symm

end Tokens

/-! ## Layout -/

theorem Token.Laid.append_of_isBlank {ts : List Token} {blanks cs : List Char}
    (hblanks : ∀ c ∈ blanks, Text.isBlank c) (h : Laid ts cs) : Laid ts (blanks ++ cs) := by
  induction blanks with
  | nil => exact h
  | cons c blanks ih =>
    rw [List.forall_mem_cons] at hblanks
    exact .blank hblanks.1 (ih hblanks.2)

namespace Tokens

/-- A line holds the tokens exactly if it was laid out from them. -/
theorem ofChars_eq_ofList_iff {ts : List Token} {cs : List Char} :
    ofChars cs = ofList ts ↔ Token.Laid ts cs := by
  refine ⟨fun h ↦ ?_, ofChars_laid⟩
  induction ts generalizing cs with
  | nil =>
    obtain ⟨blanks, rest, rfl, hblanks, hrest⟩ := ofChars_eq_finished_iff.1 h
    exact .append_of_isBlank hblanks (.finished hrest)
  | cons t ts ih =>
    obtain ⟨blanks, s, rest, rfl, hblanks, hs, hends, hrest⟩ := exists_of_ofChars_eq_cons h
    exact .append_of_isBlank hblanks (.cons s hs hends (ih hrest))

end Tokens

end TurtleGraphics
