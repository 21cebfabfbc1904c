import Mathlib.Data.Nat.Digits.Defs
import TurtleGraphics.Proofs.Outcome
import TurtleGraphics.Statement

/-!
# The grammar of a line

The commands and loop headers as lists of tokens, apart from how they are read. A line gives a
command or a header exactly if its tokens up to the end, with no fault among them, are one of these
lists. Main statement: `Statement.ofString_eq_ok_iff`.

Each piece of the reader takes a list of its own part of the grammar from the front and leaves the
rest as it was (`Tokens.Reads`), in both directions; so a line is accepted only if nothing is left.
-/

namespace TurtleGraphics

/-- The natural number that digits denote in base ten. The last one counts the ones. -/
def Token.decimal (digits : String) : Nat :=
  Nat.ofDigits 10 (digits.toList.reverse.map fun c ↦ c.toNat - '0'.toNat)

/-- Reading digits from the left gives the number they denote. -/
theorem digitsValue_toList (digits : String) :
    digitsValue digits.toList = Token.decimal digits := by
  rw [Token.decimal, Nat.ofDigits_eq_foldr, List.foldr_map, List.foldr_reverse, digitsValue]
  congr 1
  funext n c
  exact Nat.add_comm _ _

/-! ## The grammar -/

namespace Grammar

/-- A distance is a numeral without a point whose number a float can hold. -/
inductive Distance : List Token → Float → Prop
  | number {d : String} (h : (Float.ofNat (Token.decimal d)).isFinite) :
      Distance [.number d none] (Float.ofNat (Token.decimal d))

/-- An angle is a distance that may have a sign. -/
inductive Angle : List Token → Float → Prop
  | bare {l : List Token} {x : Float} (h : Distance l x) : Angle l x
  | plus {l : List Token} {x : Float} (h : Distance l x) : Angle (.plus :: l) x
  | minus {l : List Token} {x : Float} (h : Distance l x) : Angle (.minus :: l) (-x)

/-- A colour is a quoted text and keeps its spelling. -/
inductive Color : List Token → String → Prop
  | text (s : String) : Color [.text s] s

/-- What stands between the parentheses after a keyword, and the command it makes. -/
def Argument : Keyword → List Token → Command → Prop
  | .forward, l, c => ∃ x, Distance l x ∧ c = .forward x
  | .backward, l, c => ∃ x, Distance l x ∧ c = .backward x
  | .left, l, c => ∃ x, Angle l x ∧ c = .left x
  | .right, l, c => ∃ x, Angle l x ∧ c = .right x
  | .penColor, l, c => ∃ s, Color l s ∧ c = .penColor s
  | .penUp, l, c => l = [] ∧ c = .penUp
  | .penDown, l, c => l = [] ∧ c = .penDown

/-- What may stand before a keyword: nothing, or a word with a dot after it. -/
inductive Qualifier : List Token → Prop
  | absent : Qualifier []
  | word {w : String} (h : w ≠ "for") : Qualifier [.word w, .dot]

/-- The tokens after a keyword. -/
inductive Call : Keyword → List Token → Command → Prop
  | parens {keyword : Keyword} {l : List Token} {c : Command} (h : Argument keyword l c) :
      Call keyword ([.leftParen] ++ l ++ [.rightParen]) c

/-- The tokens of a command. -/
inductive Order : List Token → Command → Prop
  | call {q l : List Token} {w : String} {keyword : Keyword} {c : Command} (hq : Qualifier q)
      (hw : (w, keyword) ∈ Keyword.words) (hl : Call keyword l c) : Order (q ++ .word w :: l) c

/-- The tokens of a loop header. A count beyond 64 bits counts as the greatest one. -/
inductive Header : List Token → LoopHeader → Prop
  | loop (v d : String) :
      Header [.word "for", .word v, .word "in", .word "range", .leftParen, .number d none,
        .rightParen, .colon] ⟨v, min (Token.decimal d) (2 ^ 64 - 1)⟩

end Grammar

/-! ## Readers -/

namespace Tokens

/-- The tokens `l` in front of the reading `ts`. -/
def prepend (l : List Token) (ts : Tokens) : Tokens := l.foldr cons ts

@[simp] theorem prepend_nil (ts : Tokens) : prepend [] ts = ts := rfl
@[simp] theorem prepend_cons (t : Token) (l : List Token) (ts : Tokens) :
    prepend (t :: l) ts = cons t (prepend l ts) := rfl
@[simp] theorem prepend_append (l l' : List Token) (ts : Tokens) :
    prepend (l ++ l') ts = prepend l (prepend l' ts) := List.foldr_append

/-- The tokens in front of the end are the whole line. -/
theorem prepend_ofList (l l' : List Token) : prepend l (ofList l') = ofList (l ++ l') := by
  induction l with
  | nil => rfl
  | cons t l ih => rw [prepend_cons, ih, List.cons_append, ofList_cons]

/-- `take` takes what `G` describes from the front, only that, and leaves the rest. -/
def Reads {α : Type} (take : Tokens → Except Complaint (α × Tokens))
    (G : List Token → α → Prop) : Prop :=
  ∀ ts a rest, take ts = .ok (a, rest) ↔ ∃ l, G l a ∧ ts = prepend l rest

theorem expect_eq_ok_iff {want : Token} {what : String} {ts rest : Tokens} :
    ts.expect want what = .ok rest ↔ ts = cons want rest := by
  cases ts with
  | finished => simp [expect]
  | broken fault => simp [expect]
  | cons t ts =>
    by_cases ht : t = want
    · simp [expect, ht]
    · simp [expect, ht]

theorem expectEnd_eq_ok_iff {ts : Tokens} : ts.expectEnd = .ok () ↔ ts = finished := by
  cases ts with
  | finished => simp [expectEnd]
  | broken fault => simp [expectEnd]
  | cons t ts => simp [expectEnd]

theorem wholeNumber_eq_ok_iff {d : String} {fraction : Option String} {x : Float} :
    wholeNumber d fraction = .ok x ↔ Grammar.Distance [.number d fraction] x := by
  constructor
  · intro h
    cases fraction with
    | some fraction => simp [wholeNumber] at h
    | none =>
      simp only [wholeNumber, digitsValue_toList] at h
      split at h
      · rename_i hfinite
        cases h
        exact .number hfinite
      · cases h
  · rintro ⟨hfinite⟩
    simp only [wholeNumber, digitsValue_toList, if_pos hfinite]

theorem reads_takeNumber : Reads takeNumber Grammar.Distance := by
  intro ts x rest
  constructor
  · intro h
    unfold takeNumber at h
    split at h
    · rename_i d fraction ts
      obtain ⟨y, hy, h⟩ := bind_eq_ok.1 h
      cases return_eq_ok.1 h
      exact ⟨_, wholeNumber_eq_ok_iff.1 hy, rfl⟩
    all_goals cases h
  · rintro ⟨l, h, rfl⟩
    obtain ⟨hfinite⟩ := h
    exact bind_eq_ok.2 ⟨_, wholeNumber_eq_ok_iff.2 (.number hfinite), rfl⟩

theorem reads_takeDistance : Reads takeDistance Grammar.Distance := by
  intro ts x rest
  constructor
  · intro h
    unfold takeDistance at h
    split at h
    · cases h
    · exact (reads_takeNumber _ _ _).1 h
  · rintro ⟨l, h, rfl⟩
    obtain ⟨hfinite⟩ := h
    exact (reads_takeNumber _ _ _).2 ⟨_, .number hfinite, rfl⟩

theorem reads_takeAngle : Reads takeAngle Grammar.Angle := by
  intro ts x rest
  constructor
  · intro h
    unfold takeAngle at h
    split at h
    · obtain ⟨⟨y, rest'⟩, hy, h⟩ := bind_eq_ok.1 h
      cases return_eq_ok.1 h
      obtain ⟨l, hl, rfl⟩ := (reads_takeNumber _ _ _).1 hy
      exact ⟨.minus :: l, .minus hl, rfl⟩
    · obtain ⟨l, hl, rfl⟩ := (reads_takeNumber _ _ _).1 h
      exact ⟨.plus :: l, .plus hl, rfl⟩
    · obtain ⟨l, hl, rfl⟩ := (reads_takeNumber _ _ _).1 h
      exact ⟨l, .bare hl, rfl⟩
  · rintro ⟨l, h, rfl⟩
    cases h with
    | bare hl =>
      -- The numeral is opened so that the first token shows: it is no sign.
      obtain ⟨hfinite⟩ := hl
      exact (reads_takeNumber _ _ _).2 ⟨_, .number hfinite, rfl⟩
    | plus hl => exact (reads_takeNumber _ _ _).2 ⟨_, hl, rfl⟩
    | minus hl => exact bind_eq_ok.2 ⟨_, (reads_takeNumber _ _ _).2 ⟨_, hl, rfl⟩, rfl⟩

theorem reads_takeColor : Reads takeColor Grammar.Color := by
  intro ts s rest
  constructor
  · intro h
    unfold takeColor at h
    split at h
    · cases h
      exact ⟨_, .text s, rfl⟩
    · cases h
    · cases h
  · rintro ⟨l, ⟨s⟩, rfl⟩
    rfl

/-- A reader that takes nothing. -/
theorem Reads.pure {α : Type} (a : α) : Reads (fun ts ↦ .ok (a, ts)) fun l b ↦ l = [] ∧ b = a := by
  intro ts b rest
  constructor
  · intro h
    cases h
    exact ⟨[], ⟨rfl, rfl⟩, rfl⟩
  · rintro ⟨l, ⟨rfl, rfl⟩, rfl⟩
    rfl

/-- A reader followed by a function of its result. -/
theorem Reads.map {α β : Type} {take : Tokens → Except Complaint (α × Tokens)}
    {G : List Token → α → Prop} (h : Reads take G) (f : α → β) :
    Reads (fun ts ↦ do let (a, rest) ← take ts; return (f a, rest))
      fun l b ↦ ∃ a, G l a ∧ b = f a := by
  intro ts b rest
  constructor
  · intro htake
    obtain ⟨⟨a, rest'⟩, ha, hreturn⟩ := bind_eq_ok.1 htake
    cases return_eq_ok.1 hreturn
    obtain ⟨l, hl, rfl⟩ := (h _ _ _).1 ha
    exact ⟨l, ⟨a, hl, rfl⟩, rfl⟩
  · rintro ⟨l, ⟨a, hl, rfl⟩, rfl⟩
    exact bind_eq_ok.2 ⟨(a, rest), (h _ _ _).2 ⟨l, hl, rfl⟩, rfl⟩

theorem reads_takeArgument (keyword : Keyword) :
    Reads keyword.takeArgument (Grammar.Argument keyword) := by
  cases keyword with
  | forward => exact reads_takeDistance.map Command.forward
  | backward => exact reads_takeDistance.map Command.backward
  | left => exact reads_takeAngle.map Command.left
  | right => exact reads_takeAngle.map Command.right
  | penColor => exact reads_takeColor.map Command.penColor
  | penUp => exact Reads.pure Command.penUp
  | penDown => exact Reads.pure Command.penDown

theorem takeCounter_eq_ok_iff {ts rest : Tokens} {v : String} :
    ts.takeCounter = .ok (v, rest) ↔ ts = cons (.word v) rest := by
  constructor
  · intro h
    unfold takeCounter at h
    split at h
    · cases h
      rfl
    · cases h
    · cases h
  · rintro rfl
    rfl

theorem takeCount_eq_ok_iff {ts rest : Tokens} {n : Nat} :
    ts.takeCount = .ok (n, rest) ↔
      ∃ d, ts = cons (.number d none) rest ∧ n = min (Token.decimal d) (2 ^ 64 - 1) := by
  have hgreatest : greatestCount = 2 ^ 64 - 1 := rfl
  constructor
  · intro h
    unfold takeCount at h
    split at h
    · rename_i d fraction ts
      obtain ⟨m, hm, h⟩ := bind_eq_ok.1 h
      cases return_eq_ok.1 h
      cases fraction with
      | some fraction => cases hm
      | none =>
        cases hm
        exact ⟨d, rfl, by rw [digitsValue_toList, hgreatest]⟩
    all_goals cases h
  · rintro ⟨d, rfl, rfl⟩
    rw [← digitsValue_toList, ← hgreatest]
    rfl

end Tokens

/-! ## Whole lines -/

/-- The tokens after a keyword give a command exactly if they are its argument in parentheses. -/
theorem Command.ofTokens_eq_ok_iff {keyword : Keyword} {ts : Tokens} {c : Command} :
    Command.ofTokens keyword ts = .ok c ↔ ∃ l, Grammar.Call keyword l c ∧ ts = .ofList l := by
  constructor
  · intro h
    obtain ⟨ts₁, h₁, h⟩ := bind_eq_ok.1 h
    obtain ⟨⟨c', ts₂⟩, h₂, h⟩ := bind_eq_ok.1 h
    obtain ⟨ts₃, h₃, h⟩ := bind_eq_ok.1 h
    obtain ⟨u, h₄, h⟩ := bind_eq_ok.1 h
    cases return_eq_ok.1 h
    obtain ⟨l, hl, rfl⟩ := (Tokens.reads_takeArgument keyword _ _ _).1 h₂
    refine ⟨_, .parens hl, ?_⟩
    rw [Tokens.expect_eq_ok_iff.1 h₁, Tokens.expect_eq_ok_iff.1 h₃, Tokens.expectEnd_eq_ok_iff.1 h₄,
      List.append_assoc, ← Tokens.prepend_ofList, ← Tokens.prepend_ofList]
    rfl
  · rintro ⟨_, ⟨hl⟩, rfl⟩
    rw [List.append_assoc, ← Tokens.prepend_ofList, ← Tokens.prepend_ofList]
    refine bind_eq_ok.2 ⟨_, Tokens.expect_eq_ok_iff.2 rfl, ?_⟩
    refine bind_eq_ok.2 ⟨_, (Tokens.reads_takeArgument keyword _ _ _).2 ⟨_, hl, rfl⟩, ?_⟩
    rfl

/-- The tokens after `for` give a loop header exactly if they are the rest of one. -/
theorem LoopHeader.ofTokens_eq_ok_iff {ts : Tokens} {h : LoopHeader} :
    LoopHeader.ofTokens ts = .ok h ↔
      ∃ l, Grammar.Header (.word "for" :: l) h ∧ ts = .ofList l := by
  constructor
  · intro hts
    obtain ⟨⟨v, ts₁⟩, h₁, hts⟩ := bind_eq_ok.1 hts
    obtain ⟨ts₂, h₂, hts⟩ := bind_eq_ok.1 hts
    obtain ⟨ts₃, h₃, hts⟩ := bind_eq_ok.1 hts
    obtain ⟨ts₄, h₄, hts⟩ := bind_eq_ok.1 hts
    obtain ⟨⟨n, ts₅⟩, h₅, hts⟩ := bind_eq_ok.1 hts
    obtain ⟨ts₆, h₆, hts⟩ := bind_eq_ok.1 hts
    obtain ⟨ts₇, h₇, hts⟩ := bind_eq_ok.1 hts
    obtain ⟨u, h₈, hts⟩ := bind_eq_ok.1 hts
    cases return_eq_ok.1 hts
    obtain ⟨d, hd, rfl⟩ := Tokens.takeCount_eq_ok_iff.1 h₅
    refine ⟨_, .loop v d, ?_⟩
    rw [Tokens.takeCounter_eq_ok_iff.1 h₁, Tokens.expect_eq_ok_iff.1 h₂,
      Tokens.expect_eq_ok_iff.1 h₃, Tokens.expect_eq_ok_iff.1 h₄, hd, Tokens.expect_eq_ok_iff.1 h₆,
      Tokens.expect_eq_ok_iff.1 h₇, Tokens.expectEnd_eq_ok_iff.1 h₈]
    rfl
  · rintro ⟨_, ⟨v, d⟩, rfl⟩
    refine bind_eq_ok.2 ⟨_, Tokens.takeCounter_eq_ok_iff.2 rfl, ?_⟩
    refine bind_eq_ok.2 ⟨_, Tokens.expect_eq_ok_iff.2 rfl, ?_⟩
    refine bind_eq_ok.2 ⟨_, Tokens.expect_eq_ok_iff.2 rfl, ?_⟩
    refine bind_eq_ok.2 ⟨_, Tokens.expect_eq_ok_iff.2 rfl, ?_⟩
    refine bind_eq_ok.2 ⟨_, Tokens.takeCount_eq_ok_iff.2 ⟨d, rfl, rfl⟩, ?_⟩
    refine bind_eq_ok.2 ⟨_, Tokens.expect_eq_ok_iff.2 rfl, ?_⟩
    refine bind_eq_ok.2 ⟨_, Tokens.expect_eq_ok_iff.2 rfl, ?_⟩
    rfl

/-- Every entry of the table is found, since no word has two of them. -/
theorem Keyword.ofWord?_eq_some_iff {w : String} {keyword : Keyword} :
    Keyword.ofWord? w = some keyword ↔ (w, keyword) ∈ Keyword.words := by
  rw [Keyword.ofWord?, List.lookup_eq_some_iff]
  constructor
  · rintro ⟨before, after, hwords, -⟩
    rw [hwords]
    exact List.mem_append_right _ List.mem_cons_self
  · intro hmem
    obtain ⟨before, after, hwords⟩ := List.append_of_mem hmem
    refine ⟨before, after, hwords, fun entry hentry ↦ bne_iff_ne.2 fun heq ↦ ?_⟩
    have hnodup := Keyword.nodup_words
    rw [hwords, List.map_append, List.map_cons, List.nodup_append] at hnodup
    exact hnodup.2.2 _ (List.mem_map_of_mem hentry) _ List.mem_cons_self heq.symm

namespace Statement

variable {line : Nat} {ts : Tokens} {c : Command} {h : LoopHeader}

theorem ofWord_eq_command_iff {w : String} :
    ofWord line w ts = .ok (.command c) ↔
      ∃ keyword l, (w, keyword) ∈ Keyword.words ∧ Grammar.Call keyword l c ∧ ts = .ofList l := by
  constructor
  · intro hword
    unfold ofWord at hword
    split at hword
    · cases hword
    · rename_i keyword hkeyword
      split at hword
      · rename_i c' hc
        cases hword
        obtain ⟨l, hl, rfl⟩ := Command.ofTokens_eq_ok_iff.1 hc
        exact ⟨keyword, l, Keyword.ofWord?_eq_some_iff.1 hkeyword, hl, rfl⟩
      · cases hword
  · rintro ⟨keyword, l, hkeyword, hl, rfl⟩
    simp only [ofWord, Keyword.ofWord?_eq_some_iff.2 hkeyword,
      Command.ofTokens_eq_ok_iff.2 ⟨l, hl, rfl⟩]

theorem ofWord_ne_header {w : String} : ofWord line w ts ≠ .ok (.header h) := by
  unfold ofWord
  split
  · simp
  · split
    · simp
    · simp

theorem ofTokens_eq_command_iff :
    ofTokens line ts = .ok (.command c) ↔ ∃ l, Grammar.Order l c ∧ ts = .ofList l := by
  constructor
  · intro hts
    unfold ofTokens at hts
    split at hts
    · cases hts
    · rename_i w rest
      split at hts
      · split at hts
        · cases hts
        · cases hts
      · rename_i hfor
        split at hts
        · rename_i w' rest
          obtain ⟨keyword, l, hkeyword, hl, rfl⟩ := ofWord_eq_command_iff.1 hts
          exact ⟨_, .call (.word hfor) hkeyword hl, rfl⟩
        · cases hts
        · obtain ⟨keyword, l, hkeyword, hl, rfl⟩ := ofWord_eq_command_iff.1 hts
          exact ⟨_, .call .absent hkeyword hl, rfl⟩
    · cases hts
  · rintro ⟨_, @⟨q, l, w, keyword, c, hq, hkeyword, hl⟩, rfl⟩
    have hword : ofWord line w (.ofList l) = .ok (.command c) :=
      ofWord_eq_command_iff.2 ⟨keyword, l, hkeyword, hl, rfl⟩
    cases hq with
    | absent =>
      have hfor : w ≠ "for" := by
        rintro rfl
        rw [← Keyword.ofWord?_eq_some_iff, Keyword.ofWord?_for] at hkeyword
        cases hkeyword
      -- A call begins with a parenthesis, so the keyword is not taken for a qualifier.
      obtain ⟨hargument⟩ := hl
      exact (if_neg hfor).trans hword
    | word hfor => exact (if_neg hfor).trans hword

theorem ofTokens_eq_header_iff :
    ofTokens line ts = .ok (.header h) ↔ ∃ l, Grammar.Header l h ∧ ts = .ofList l := by
  constructor
  · intro hts
    unfold ofTokens at hts
    split at hts
    · cases hts
    · rename_i w rest
      split at hts
      · rename_i hfor
        split at hts
        · rename_i h' hheader
          cases hts
          obtain ⟨l, hl, rfl⟩ := LoopHeader.ofTokens_eq_ok_iff.1 hheader
          exact ⟨_, hl, by rw [hfor]; rfl⟩
        · cases hts
      · split at hts
        · exact absurd hts ofWord_ne_header
        · cases hts
        · exact absurd hts ofWord_ne_header
    · cases hts
  · rintro ⟨_, ⟨v, d⟩, rfl⟩
    have hheader := LoopHeader.ofTokens_eq_ok_iff.2 ⟨_, .loop v d, rfl⟩
    simp only [Tokens.ofList_cons, ofTokens, if_pos] at hheader ⊢
    rw [hheader]

/-- Only a line that opens a loop is a header. -/
theorem opensLoop_of_ofTokens (hts : ofTokens line ts = .ok (.header h)) :
    ts.opensLoop = true := by
  obtain ⟨_, ⟨v, d⟩, rfl⟩ := ofTokens_eq_header_iff.1 hts
  rfl

/-- A line that gives a command opens no loop. -/
theorem opensLoop_of_command (hts : ofTokens line ts = .ok (.command c)) :
    ts.opensLoop = false := by
  obtain ⟨_, @⟨q, l, w, keyword, _, hq, hkeyword, -⟩, rfl⟩ := ofTokens_eq_command_iff.1 hts
  cases hq with
  | word hfor => exact decide_eq_false hfor
  | absent =>
    refine decide_eq_false ?_
    rintro rfl
    rw [← Keyword.ofWord?_eq_some_iff, Keyword.ofWord?_for] at hkeyword
    cases hkeyword

/-- A line gives a command or a header exactly if its tokens, read to the end without a fault, are
that command or that header in the grammar. -/
theorem ofString_eq_ok_iff (line : Nat) (text : String) :
    (∀ c, ofString line text = .ok (.command c) ↔
      ∃ l, Grammar.Order l c ∧ Tokens.ofString text = .ofList l) ∧
    (∀ h, ofString line text = .ok (.header h) ↔
      ∃ l, Grammar.Header l h ∧ Tokens.ofString text = .ofList l) :=
  ⟨fun _ ↦ ofTokens_eq_command_iff, fun _ ↦ ofTokens_eq_header_iff⟩

end Statement

end TurtleGraphics
