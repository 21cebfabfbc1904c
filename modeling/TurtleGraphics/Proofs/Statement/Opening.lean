import TurtleGraphics.Proofs.Statement.Grammar
import TurtleGraphics.Proofs.Token.Spelling

/-!
# How a line opens

The leading words of a line decide whether it may fail and with which fault. A line without a token
is blank. One that opens with `for` has to be a header, and one whose command word is a keyword has
to be a command; either fails if it is not, with the fault of its kind. Every other line is passed
over, whatever follows.

`Statement.sorted_ofTokens` goes through all the ways a line can open, once. The main statement,
`Statement.ofString_sorted`, reads each class off it.
-/

namespace TurtleGraphics

namespace Grammar

/-- The line begins with the word `first`, and its command word is `word`: that one, or the one
behind a dot if a dot comes next. What follows the command word is `rest`. -/
inductive Leads : Tokens → String → String → Tokens → Prop
  | bare {word : String} {rest : Tokens} (h : ∀ ts, rest ≠ .cons .dot ts) :
      Leads (.cons (.word word) rest) word word rest
  | qualified (first word : String) (rest : Tokens) :
      Leads (.cons (.word first) (.cons .dot (.cons (.word word) rest))) first word rest

/-- The line holds something, but opens no loop and names no command. -/
inductive Passed : Tokens → Prop
  /-- It begins with something that is no token. -/
  | unreadable (fault : Token.Fault) : Passed (.broken fault)
  /-- It begins with a token that is no word. -/
  | wordless {t : Token} (ht : ∀ word, t ≠ .word word) (rest : Tokens) : Passed (.cons t rest)
  /-- No word follows the dot. -/
  | dotted {first : String} {rest : Tokens} (hfirst : first ≠ "for")
      (hrest : ∀ word ts, rest ≠ .cons (.word word) ts) :
      Passed (.cons (.word first) (.cons .dot rest))
  /-- Its command word is no keyword. -/
  | unknown {ts rest : Tokens} {first word : String} (h : Leads ts first word rest)
      (hfirst : first ≠ "for") (hword : ∀ keyword, (word, keyword) ∉ Keyword.words) : Passed ts

end Grammar

namespace Statement

open Grammar

variable {line : Nat} {ts rest : Tokens} {first word : String} {keyword : Keyword}

/-! ## What each opening leads to -/

theorem ofTokens_for (line : Nat) (rest : Tokens) :
    ofTokens line (.cons (.word "for") rest) =
      match LoopHeader.ofTokens rest with
      | .ok h => .ok (header h)
      | .error complaint => .error (.header line complaint.message) := by
  unfold ofTokens
  exact if_pos rfl

theorem ofTokens_word (hfirst : first ≠ "for") :
    ofTokens line (.cons (.word first) rest) =
      match rest with
      | .cons .dot (.cons (.word word) rest) => ofWord line word rest
      | .cons .dot _ => .ok other
      | rest => ofWord line first rest := by
  unfold ofTokens
  exact if_neg hfirst

theorem ofTokens_of_leads (h : Leads ts first word rest) (hfirst : first ≠ "for") :
    ofTokens line ts = ofWord line word rest := by
  cases h with
  | bare hrest =>
    rw [ofTokens_word hfirst]
    split
    · exact absurd rfl (hrest _)
    · exact absurd rfl (hrest _)
    · rfl
  | qualified => exact ofTokens_word hfirst

theorem ofTokens_of_keyword (line : Nat) (h : Leads ts first word rest) (hfirst : first ≠ "for")
    (hword : (word, keyword) ∈ Keyword.words) :
    ofTokens line ts =
      match Command.ofTokens keyword rest with
      | .ok c => .ok (command c)
      | .error complaint => .error (.argument line word complaint.message) := by
  have hlookup := Keyword.ofWord?_eq_some_iff.2 hword
  cases hc : Command.ofTokens keyword rest with
  | ok c => simp only [ofTokens_of_leads h hfirst, ofWord, hlookup, hc]
  | error complaint => simp only [ofTokens_of_leads h hfirst, ofWord, hlookup, hc]

theorem ofTokens_of_passed (h : Passed ts) : ofTokens line ts = .ok other := by
  cases h with
  | unreadable fault => rfl
  | @wordless t ht rest =>
    cases t with
    | word word => exact absurd rfl (ht word)
    | _ => rfl
  | @dotted first rest hfirst hrest =>
    rw [ofTokens_word hfirst]
    split
    · rename_i word ts heq
      cases heq
      exact absurd rfl (hrest word ts)
    · rfl
    · rename_i hdot
      exact absurd rfl (hdot rest)
  | @unknown ts rest first word h hfirst hword =>
    rw [ofTokens_of_leads h hfirst, ofWord]
    cases hk : Keyword.ofWord? word with
    | none => rfl
    | some keyword => exact absurd (Keyword.ofWord?_eq_some_iff.1 hk) (hword keyword)

/-! ## All lines -/

/-- The class of a line with what comes of it. -/
inductive Sorted (line : Nat) : Tokens → Except Fault Statement → Prop
  | blank : Sorted line .finished (.ok blank)
  | header {ts : Tokens} {h : LoopHeader} (hts : ∃ l, Header l h ∧ ts = .ofList l) :
      Sorted line ts (.ok (header h))
  | badHeader {rest : Tokens}
      (hts : ¬ ∃ l h, Header l h ∧ Tokens.cons (.word "for") rest = .ofList l) (detail : String) :
      Sorted line (.cons (.word "for") rest) (.error (.header line detail))
  | command {ts rest : Tokens} {first word : String} {keyword : Keyword} {c : Command}
      (h : Leads ts first word rest) (hfirst : first ≠ "for")
      (hword : (word, keyword) ∈ Keyword.words) (hts : ∃ l, Order l c ∧ ts = .ofList l) :
      Sorted line ts (.ok (command c))
  | badCommand {ts rest : Tokens} {first word : String} {keyword : Keyword}
      (h : Leads ts first word rest) (hfirst : first ≠ "for")
      (hword : (word, keyword) ∈ Keyword.words) (hts : ¬ ∃ l c, Order l c ∧ ts = .ofList l)
      (detail : String) : Sorted line ts (.error (.argument line word detail))
  | passed {ts : Tokens} (h : Passed ts) : Sorted line ts (.ok other)

theorem sorted_of_for (line : Nat) (rest : Tokens) :
    Sorted line (.cons (.word "for") rest) (ofTokens line (.cons (.word "for") rest)) := by
  have hts := ofTokens_for line rest
  split at hts
  · rw [hts]
    exact .header (ofTokens_eq_header_iff.1 hts)
  · rw [hts]
    refine .badHeader ?_ _
    rintro ⟨l, h, hl⟩
    rw [ofTokens_eq_header_iff.2 ⟨l, hl⟩] at hts
    cases hts

theorem sorted_of_leads (line : Nat) (h : Leads ts first word rest) (hfirst : first ≠ "for") :
    Sorted line ts (ofTokens line ts) := by
  by_cases hword : ∃ keyword, (word, keyword) ∈ Keyword.words
  · obtain ⟨keyword, hkeyword⟩ := hword
    have hts := ofTokens_of_keyword line h hfirst hkeyword
    split at hts
    · rw [hts]
      exact .command h hfirst hkeyword (ofTokens_eq_command_iff.1 hts)
    · rw [hts]
      refine .badCommand h hfirst hkeyword ?_ _
      rintro ⟨l, c, hl⟩
      rw [ofTokens_eq_command_iff.2 ⟨l, hl⟩] at hts
      cases hts
  · have hpassed : Passed ts := .unknown h hfirst (not_exists.1 hword)
    rw [ofTokens_of_passed hpassed]
    exact .passed hpassed

/-- Every line is sorted into one of the classes. -/
theorem sorted_ofTokens (line : Nat) (ts : Tokens) : Sorted line ts (ofTokens line ts) := by
  cases ts with
  | finished => exact .blank
  | broken fault => exact .passed (.unreadable fault)
  | cons t rest =>
    by_cases ht : ∃ word, t = .word word
    · obtain ⟨first, rfl⟩ := ht
      by_cases hfirst : first = "for"
      · subst hfirst
        exact sorted_of_for line rest
      by_cases hdot : ∃ ts, rest = .cons .dot ts
      · obtain ⟨ts, rfl⟩ := hdot
        by_cases hword : ∃ word rest, ts = .cons (.word word) rest
        · obtain ⟨word, rest, rfl⟩ := hword
          exact sorted_of_leads line (.qualified first word rest) hfirst
        · have hpassed : Passed (.cons (.word first) (.cons .dot ts)) :=
            .dotted hfirst fun word rest h ↦ hword ⟨word, rest, h⟩
          rw [ofTokens_of_passed hpassed]
          exact .passed hpassed
      · exact sorted_of_leads line (.bare fun ts h ↦ hdot ⟨ts, h⟩) hfirst
    · have hpassed : Passed (.cons t rest) := .wordless (fun word h ↦ ht ⟨word, h⟩) rest
      rw [ofTokens_of_passed hpassed]
      exact .passed hpassed

/-- What is passed over is all that is neither blank nor opened by `for` or a keyword. -/
theorem passed_iff :
    Passed ts ↔ ts ≠ .finished ∧ (∀ rest, ts ≠ .cons (.word "for") rest) ∧
      ∀ first word rest keyword, first ≠ "for" → Leads ts first word rest →
        (word, keyword) ∉ Keyword.words := by
  constructor
  · intro h
    have hts : ofTokens 0 ts = .ok other := ofTokens_of_passed h
    refine ⟨?_, ?_, ?_⟩
    · rintro rfl
      cases hts
    · rintro rest rfl
      rw [ofTokens_for] at hts
      split at hts
      · cases hts
      · cases hts
    · intro first word rest keyword hfirst hleads hword
      rw [ofTokens_of_keyword _ hleads hfirst hword] at hts
      split at hts
      · cases hts
      · cases hts
  · rintro ⟨hblank, hfor, hword⟩
    have hsorted := sorted_ofTokens 0 ts
    generalize ofTokens 0 ts = said at hsorted
    cases hsorted with
    | blank => exact absurd rfl hblank
    | header hts =>
      obtain ⟨_, ⟨v, d⟩, rfl⟩ := hts
      exact absurd rfl (hfor _)
    | badHeader => exact absurd rfl (hfor _)
    | command h hfirst hkeyword => exact absurd hkeyword (hword _ _ _ _ hfirst h)
    | badCommand h hfirst hkeyword => exact absurd hkeyword (hword _ _ _ _ hfirst h)
    | passed h => exact h

theorem ofTokens_eq_blank_iff : ofTokens line ts = .ok blank ↔ ts = .finished := by
  constructor
  · intro hts
    have h := sorted_ofTokens line ts
    rw [hts] at h
    cases h
    rfl
  · rintro rfl
    rfl

theorem ofTokens_eq_other_iff : ofTokens line ts = .ok other ↔ Passed ts := by
  constructor
  · intro hts
    have h := sorted_ofTokens line ts
    rw [hts] at h
    cases h with
    | passed h => exact h
  · exact ofTokens_of_passed

theorem ofTokens_eq_badHeader_iff :
    (∃ detail, ofTokens line ts = .error (.header line detail)) ↔
      (∃ rest, ts = .cons (.word "for") rest) ∧ ¬ ∃ l h, Header l h ∧ ts = .ofList l := by
  constructor
  · rintro ⟨detail, hts⟩
    have h := sorted_ofTokens line ts
    rw [hts] at h
    cases h with
    | badHeader h => exact ⟨⟨_, rfl⟩, h⟩
  · rintro ⟨⟨rest, rfl⟩, hheader⟩
    have hts := ofTokens_for line rest
    split at hts
    · exact absurd ⟨_, _, (ofTokens_eq_header_iff.1 hts).choose_spec⟩ hheader
    · exact ⟨_, hts⟩

theorem ofTokens_eq_badCommand_iff :
    (∃ detail, ofTokens line ts = .error (.argument line word detail)) ↔
      (∃ first rest, first ≠ "for" ∧ Leads ts first word rest) ∧
        (∃ keyword, (word, keyword) ∈ Keyword.words) ∧ ¬ ∃ l c, Order l c ∧ ts = .ofList l := by
  constructor
  · rintro ⟨detail, hts⟩
    have h := sorted_ofTokens line ts
    rw [hts] at h
    cases h with
    | badCommand h hfirst hword hcommand =>
      exact ⟨⟨_, _, hfirst, h⟩, ⟨_, hword⟩, hcommand⟩
  · rintro ⟨⟨first, rest, hfirst, h⟩, ⟨keyword, hword⟩, hcommand⟩
    have hts := ofTokens_of_keyword line h hfirst hword
    split at hts
    · exact absurd ⟨_, _, (ofTokens_eq_command_iff.1 hts).choose_spec⟩ hcommand
    · exact ⟨_, hts⟩

/-- A fault of a line bears its number, and a single line is never found to be a nested loop. -/
theorem fault_of_ofTokens {fault : Fault} (hts : ofTokens line ts = .error fault) :
    fault.line = line ∧ ∀ n, fault ≠ .nestedLoop n := by
  have h := sorted_ofTokens line ts
  rw [hts] at h
  cases h with
  | badHeader _ detail => exact ⟨rfl, fun n ↦ Fault.noConfusion⟩
  | badCommand _ _ _ _ detail => exact ⟨rfl, fun n ↦ Fault.noConfusion⟩

/-- The leading words of a line decide which kind of failure it may be or whether it is passed
over: without a token it is blank, `for` asks for a header and a keyword for a command, and nothing
else can fail. -/
theorem ofString_sorted (line : Nat) (text : String) :
    let ts := Tokens.ofString text
    let said := ofString line text
    (said = .ok blank ↔ ts = .finished) ∧
    (ts = .finished ↔ ∃ blanks rest, text.toList = blanks ++ rest ∧
      (∀ c ∈ blanks, Text.isBlank c) ∧ ∀ c ∈ rest.head?, c = '#') ∧
    ((∃ detail, said = .error (.header line detail)) ↔
      (∃ rest, ts = .cons (.word "for") rest) ∧ ¬ ∃ l h, Header l h ∧ ts = .ofList l) ∧
    (∀ word, (∃ detail, said = .error (.argument line word detail)) ↔
      (∃ first rest, first ≠ "for" ∧ Leads ts first word rest) ∧
        (∃ keyword, (word, keyword) ∈ Keyword.words) ∧ ¬ ∃ l c, Order l c ∧ ts = .ofList l) ∧
    (said = .ok other ↔ Passed ts) ∧
    (Passed ts ↔ ts ≠ .finished ∧ (∀ rest, ts ≠ .cons (.word "for") rest) ∧
      ∀ first word rest keyword, first ≠ "for" → Leads ts first word rest →
        (word, keyword) ∉ Keyword.words) ∧
    (∀ fault, said = .error fault → fault.line = line ∧ ∀ n, fault ≠ .nestedLoop n) :=
  ⟨ofTokens_eq_blank_iff, Tokens.ofChars_eq_finished_iff, ofTokens_eq_badHeader_iff,
    fun _ ↦ ofTokens_eq_badCommand_iff, ofTokens_eq_other_iff, passed_iff,
    fun _ ↦ fault_of_ofTokens⟩

end Statement

end TurtleGraphics
