import TurtleGraphics.Json.Printer
import TurtleGraphics.Json.Quoted

/-!
# Strings that were written

A string is written character by character: quotes, backslashes and control characters are escaped,
all others stand for themselves. Reading undoes this character by character, so a string that was
written is read back, whatever follows its closing quote (`readString_flatMap_escapeChar`).
-/

namespace TurtleGraphics.Json

variable {c : Char} {rest : List Char}

/-- Control characters are the characters of two hexadecimal digits of which the first is not above
one. -/
theorem hexNumber?_hexPair {n : Nat} (h : n < 0x20) :
    hexNumber? '0' '0' (Nat.digitChar (n / 16)) (Nat.digitChar (n % 16)) = some n := by
  revert n
  decide

theorem byteLength_hexPair {n : Nat} (h : n < 0x20) :
    byteLength ('0' :: '0' :: hexPair n) = 4 := by
  revert n
  decide

theorem readCode_hexPair (h : c.toNat < 0x20) (rest : List Char) :
    readCode ('0' :: '0' :: hexPair c.toNat ++ rest) = .ok (c, rest) := by
  have hhex : readHex ('0' :: '0' :: hexPair c.toNat ++ rest) = .ok (c.toNat, rest) := by
    have hlength : byteLength (('0' :: '0' :: hexPair c.toNat ++ rest).take 4) = 4 :=
      byteLength_hexPair h
    rw [readHex, if_neg (by rw [hlength]; decide)]
    simp only [hexPair, List.cons_append, List.nil_append, hexNumber?_hexPair h]
  have hlow : isLowSurrogate c.toNat = false := by
    rw [isLowSurrogate, Bool.and_eq_false_iff]
    exact .inl (decide_eq_false (by omega))
  have hhigh : isHighSurrogate c.toNat = false := by
    rw [isHighSurrogate, Bool.and_eq_false_iff]
    exact .inl (decide_eq_false (by omega))
  rw [readCode, hhex]
  simp only [hlow, hhigh, Bool.false_eq_true, if_false, Char.ofNat_toNat]

/-- A character stands for itself, or for itself after a backslash and some characters. -/
theorem escapeChar_eq (c : Char) :
    (escapeChar c = [c] ∧ c ≠ '"' ∧ c ≠ '\\' ∧ ¬ c.toNat < 0x20) ∨
      ∃ cs, escapeChar c = '\\' :: cs ∧ ∀ rest, readEscape (cs ++ rest) = .ok (c, rest) := by
  unfold escapeChar
  split
  · rename_i hc
    subst hc
    exact .inr ⟨['"'], rfl, fun _ ↦ rfl⟩
  · split
    · rename_i hc
      subst hc
      exact .inr ⟨['\\'], rfl, fun _ ↦ rfl⟩
    · split
      · rename_i hc
        subst hc
        exact .inr ⟨['n'], rfl, fun _ ↦ rfl⟩
      · split
        · rename_i hc
          subst hc
          exact .inr ⟨['r'], rfl, fun _ ↦ rfl⟩
        · split
          · rename_i hc
            subst hc
            exact .inr ⟨['t'], rfl, fun _ ↦ rfl⟩
          · split
            · rename_i hc
              obtain rfl : c = '\x08' := Char.toNat_inj.1 hc
              exact .inr ⟨['b'], rfl, fun _ ↦ rfl⟩
            · split
              · rename_i hc
                obtain rfl : c = '\x0c' := Char.toNat_inj.1 hc
                exact .inr ⟨['f'], rfl, fun _ ↦ rfl⟩
              · split
                · rename_i hc
                  exact .inr ⟨'u' :: '0' :: '0' :: hexPair c.toNat, rfl, readCode_hexPair hc⟩
                · rename_i hquote hslash _ _ _ _ _ hcontrol
                  exact .inl ⟨rfl, hquote, hslash, hcontrol⟩

theorem readChars_escapeChar (before rest : List Char) (c : Char) :
    readChars before (escapeChar c ++ rest) = readChars (c :: before) rest := by
  obtain ⟨hc, hquote, hslash, hcontrol⟩ | ⟨cs, hc, hread⟩ := escapeChar_eq c
  · rw [hc, List.singleton_append, readChars, if_neg hquote, if_neg hslash, if_neg hcontrol]
  · rw [hc, List.cons_append, readChars, if_neg (by decide), if_pos rfl]
    split
    · rename_i hfault
      cases (hread rest).symm.trans hfault
    · rename_i hok
      cases (hread rest).symm.trans hok
      rfl

/-- A string that was written is read back. -/
theorem readString_flatMap_escapeChar (s : String) (rest : List Char) :
    readString (s.toList.flatMap escapeChar ++ '"' :: rest) = .ok (s, rest) := by
  suffices h : ∀ cs before : List Char, readChars before (cs.flatMap escapeChar ++ '"' :: rest) =
      .ok (String.ofList (before.reverse ++ cs), rest) by
    rw [readString, h, List.reverse_nil, List.nil_append, String.ofList_toList]
  intro cs
  induction cs with
  | nil =>
    intro before
    rw [List.flatMap_nil, List.nil_append, readChars, if_pos rfl, List.append_nil]
  | cons c cs ih =>
    intro before
    rw [List.flatMap_cons, List.append_assoc, readChars_escapeChar, ih, List.reverse_cons,
      List.append_assoc, List.singleton_append]

end TurtleGraphics.Json
