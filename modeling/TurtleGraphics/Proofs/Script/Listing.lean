import TurtleGraphics.Proofs.Script.Margin
import TurtleGraphics.Proofs.Token.Spelling

/-!
# Listings of programs

A program is a list of instructions and of loops over instructions, apart from any text. A listing
of it has a line for each of them, in column 0 but for the bodies of loops, and leaves some freedom:
which word is written for an instruction, which quote for a colour, how far a line in a body is
indented. Main statements:

* `Program.Readable.exists_listing`: a program that can be read back has a listing;
* `Program.stream_listing`: the stream of a listing is that of the program, a count that does not
  fit in 64 bits cut down to the greatest one that does.
-/

namespace TurtleGraphics

/-! ## Programs -/

/-- A command apart from its text: distances are natural numbers and angles integers. -/
inductive Instruction where
  | forward (distance : Nat)
  | backward (distance : Nat)
  | left (angle : Int)
  | right (angle : Int)
  | penColor (color : String)
  | penUp
  | penDown
deriving DecidableEq, Repr

/-- One piece of a program. -/
inductive Item where
  | single (i : Instruction)
  | loop (count : Nat) (body : List Instruction)
deriving DecidableEq, Repr

/-- Instructions and loops, one after the other. -/
abbrev Program := List Item

namespace Instruction

/-- The kind of command that the instruction is. -/
def keyword : Instruction → Keyword
  | forward _ => .forward
  | backward _ => .backward
  | left _ => .left
  | right _ => .right
  | penColor _ => .penColor
  | penUp => .penUp
  | penDown => .penDown

/-- What the instruction tells the turtle, with its number rounded to the nearest float. -/
def command : Instruction → Command
  | forward d => .forward (.ofNat d)
  | backward d => .backward (.ofNat d)
  | left a => .left (.ofInt a)
  | right a => .right (.ofInt a)
  | penColor s => .penColor s
  | penUp => .penUp
  | penDown => .penDown

/-- Whether the instruction can be read back from a line: a float can hold its number, its colour
stands on one line and leaves a quote to write it with. -/
def Readable : Instruction → Prop
  | forward d | backward d => (Float.ofNat d).isFinite
  | left a | right a => (Float.ofNat a.natAbs).isFinite
  | penColor s => '\n' ∉ s.toList ∧ ¬ ('\'' ∈ s.toList ∧ '"' ∈ s.toList)
  | penUp | penDown => True

instance : DecidablePred Readable
  | forward d | backward d => inferInstanceAs (Decidable ((Float.ofNat d).isFinite = true))
  | left a | right a => inferInstanceAs (Decidable ((Float.ofNat a.natAbs).isFinite = true))
  | penColor s =>
    inferInstanceAs (Decidable ('\n' ∉ s.toList ∧ ¬ ('\'' ∈ s.toList ∧ '"' ∈ s.toList)))
  | penUp | penDown => inferInstanceAs (Decidable True)

/-- What stands between the parentheses. -/
def argument (quote : Char) : Instruction → String
  | forward d | backward d => toString d
  | left a | right a => toString a
  | penColor s => String.singleton quote ++ s ++ String.singleton quote
  | penUp | penDown => ""

/-- How the instruction is written: with any word for it, and between quotes of which its colour has
none. -/
inductive Written (i : Instruction) : String → Prop
  | call {word : String} {quote : Char} (hword : (word, i.keyword) ∈ Keyword.words)
      (hquote : quote = '\'' ∨ quote = '"')
      (hcolor : ∀ s, i = penColor s → quote ∉ s.toList) :
      Written i (word ++ "(" ++ i.argument quote ++ ")")

/-- How the instruction is written in the body of a loop, behind spaces and tabs. -/
inductive Indented (i : Instruction) : String → Prop
  | indent {blanks text : String} (hne : blanks ≠ "")
      (hblanks : ∀ c ∈ blanks.toList, c = ' ' ∨ c = '\t') (h : i.Written text) :
      Indented i (blanks ++ text)

end Instruction

namespace Item

/-- Whether every instruction of the piece can be read back. -/
def Readable : Item → Prop
  | single i => i.Readable
  | loop _ body => ∀ i ∈ body, i.Readable

instance : DecidablePred Readable
  | single i => inferInstanceAs (Decidable i.Readable)
  | loop _ body => inferInstanceAs (Decidable (∀ i ∈ body, i.Readable))

/-- The commands of the piece, the loop written out. -/
def commands : Item → List Command
  | single i => [i.command]
  | loop count body => (List.replicate count (body.map Instruction.command)).flatten

/-- The head of a loop as it is written. -/
def heading (count : Nat) : String := "for i in range(" ++ toString count ++ "):"

/-- How the piece is written. -/
inductive Listing : Item → List String → Prop
  | single {i : Instruction} {text : String} (h : i.Written text) : Listing (single i) [text]
  | loop {body : List Instruction} {lines : List String} (count : Nat)
      (h : List.Forall₂ Instruction.Indented body lines) :
      Listing (loop count body) (heading count :: lines)

end Item

namespace Program

/-- Whether every instruction of the program can be read back. -/
def Readable (p : Program) : Prop := ∀ item ∈ p, item.Readable

instance (p : Program) : Decidable p.Readable :=
  inferInstanceAs (Decidable (∀ item ∈ p, item.Readable))

/-- The commands of the program, every loop written out. -/
def commands (p : Program) : List Command := p.flatMap Item.commands

/-- How the program is written, one line for each instruction and for each head of a loop. -/
inductive Listing : Program → List String → Prop
  | nil : Listing [] []
  | cons {item : Item} {p : Program} {lines more : List String} (hitem : item.Listing lines)
      (hp : Listing p more) : Listing (item :: p) (lines ++ more)

end Program

/-! ## What a written line says -/

namespace Token

theorem decimal_toString (n : Nat) : decimal (toString n) = n := by
  rw [← digitsValue_toList, digitsValue, ← Nat.ofDigitChars_eq_foldl, Nat.toString_eq_repr,
    Nat.toList_repr, Nat.ofDigitChars_ten_toDigits]

end Token

/-- Every word for a command is a word. -/
theorem Keyword.isWord_of_mem_words {word : String} {keyword : Keyword}
    (h : (word, keyword) ∈ words) : Token.IsWord word := by
  have hwords : ∀ entry ∈ words, Token.IsWord entry.1 := by decide
  exact hwords (word, keyword) h

namespace Instruction

open Token

theorem toList_toString_negSucc (n : Nat) :
    (toString (Int.negSucc n)).toList = '-' :: (toString (n + 1)).toList := String.toList_append

/-- The tokens of an angle. -/
def angleTokens : Int → List Token
  | .ofNat n => [.number (toString n) none]
  | .negSucc n => [.minus, .number (toString (n + 1)) none]

/-- The tokens between the parentheses. -/
def argumentTokens : Instruction → List Token
  | forward d | backward d => [.number (toString d) none]
  | left a | right a => angleTokens a
  | penColor s => [.text s]
  | penUp | penDown => []

theorem distance_toString {d : Nat} (h : (Float.ofNat d).isFinite) :
    Grammar.Distance [.number (toString d) none] (.ofNat d) := by
  have hd := decimal_toString d
  have hdistance : Grammar.Distance [.number (toString d) none]
      (.ofNat (decimal (toString d))) := .number (by rwa [hd])
  rwa [hd] at hdistance

theorem angle_angleTokens {a : Int} (h : (Float.ofNat a.natAbs).isFinite) :
    Grammar.Angle (angleTokens a) (.ofInt a) := by
  cases a with
  | ofNat n => exact .bare (distance_toString h)
  | negSucc n => exact .minus (distance_toString h)

/-- The tokens between the parentheses are an argument that makes the command. -/
theorem argument_argumentTokens {i : Instruction} (h : i.Readable) :
    Grammar.Argument i.keyword i.argumentTokens i.command := by
  cases i with
  | forward d => exact ⟨_, distance_toString h, rfl⟩
  | backward d => exact ⟨_, distance_toString h, rfl⟩
  | left a => exact ⟨_, angle_angleTokens h, rfl⟩
  | right a => exact ⟨_, angle_angleTokens h, rfl⟩
  | penColor s => exact ⟨s, .text s, rfl⟩
  | penUp => exact ⟨rfl, rfl⟩
  | penDown => exact ⟨rfl, rfl⟩

section

variable {ts : List Token} {cs : List Char}

theorem written_angle (a : Int) (h : Token.Written ts (')' :: cs)) :
    Token.Written (angleTokens a ++ ts) ((toString a).toList ++ ')' :: cs) := by
  cases a with
  | ofNat n => exact written_toString n h
  | negSucc n =>
    rw [toList_toString_negSucc]
    exact .symbol rfl (fun _ ↦ trivial) (written_toString (n + 1) h)

/-- What stands between the parentheses is written as its tokens. -/
theorem written_argument {i : Instruction} {quote : Char} (hquote : quote = '\'' ∨ quote = '"')
    (hcolor : ∀ s, i = penColor s → quote ∉ s.toList) (h : Token.Written ts (')' :: cs)) :
    Token.Written (i.argumentTokens ++ ts) ((i.argument quote).toList ++ ')' :: cs) := by
  cases i with
  | forward d => exact written_toString d h
  | backward d => exact written_toString d h
  | left a => exact written_angle a h
  | right a => exact written_angle a h
  | penColor s =>
    have htext : (argument quote (penColor s)).toList = quote :: (s.toList ++ [quote]) := by
      simp [argument]
    have hspelling := Spelling.text hquote (hcolor s rfl)
    rw [String.ofList_toList, ← htext] at hspelling
    exact .cons _ hspelling trivial h
  | penUp => exact h
  | penDown => exact h

end

/-- The written instruction is read as its tokens. -/
theorem Written.ofString_eq {i : Instruction} {text : String} (h : i.Written text) :
    ∃ word, (word, i.keyword) ∈ Keyword.words ∧ Tokens.ofString text =
      .ofList (.word word :: ([.leftParen] ++ i.argumentTokens ++ [.rightParen])) := by
  obtain @⟨word, quote, hword, hquote, hcolor⟩ := h
  refine ⟨word, hword, Tokens.ofChars_written ?_⟩
  have hclose : Token.Written [.rightParen] [')'] := .symbol rfl (fun _ ↦ trivial) .nil
  have hargument := written_argument hquote hcolor hclose
  have hopen := Token.Written.symbol (c := '(') rfl (fun _ ↦ trivial) hargument
  have hwhole := hopen.word (Keyword.isWord_of_mem_words hword) (by decide) (by decide)
  simpa using hwhole

/-- A line with the written instruction gives its command. -/
theorem Written.statement_eq {i : Instruction} {text : String} (h : i.Written text)
    (hi : i.Readable) (n : Nat) : Statement.ofString n text = .ok (.command i.command) := by
  obtain ⟨word, hword, htokens⟩ := h.ofString_eq
  refine Statement.ofTokens_eq_command_iff.2 ⟨_, ?_, htokens⟩
  exact .call .absent hword (.parens (argument_argumentTokens hi))

/-- A line with a written instruction opens no loop. -/
theorem Written.opensLoop_eq {i : Instruction} {text : String} (h : i.Written text) :
    (Tokens.ofString text).opensLoop = false := by
  obtain ⟨word, hword, htokens⟩ := h.ofString_eq
  have hfor : word ≠ "for" := by
    rintro rfl
    rw [← Keyword.ofWord?_eq_some_iff, Keyword.ofWord?_for] at hword
    cases hword
  rw [htokens]
  exact decide_eq_false hfor

end Instruction

namespace Item

theorem toList_heading (count : Nat) : (heading count).toList =
    "for i in range(".toList ++ (toString count).toList ++ "):".toList := by
  delta heading
  rw [String.toList_append, String.toList_append]

open Token in
/-- The head of a loop is written as its tokens. -/
theorem written_heading (count : Nat) :
    Written [.word "for", .word "i", .word "in", .word "range", .leftParen,
      .number (toString count) none, .rightParen, .colon] (heading count).toList := by
  have hblank : Text.isBlank ' ' := by decide
  have hclose : Written [.rightParen, .colon] [')', ':'] :=
    .symbol rfl (fun _ ↦ trivial) (.symbol rfl (fun _ ↦ trivial) .nil)
  have hopen : Written [.leftParen, .number (toString count) none, .rightParen, .colon]
      ('(' :: ((toString count).toList ++ [')', ':'])) :=
    .symbol rfl (fun _ ↦ trivial) (written_toString count hclose)
  have hrange := hopen.word (w := "range") (by decide) (by decide) (by decide)
  have hin := (hrange.blank hblank).word (w := "in") (by decide) (by decide) (by decide)
  have hi := (hin.blank hblank).word (w := "i") (by decide) (by decide) (by decide)
  have hfor := (hi.blank hblank).word (w := "for") (by decide) (by decide) (by decide)
  rw [toList_heading]
  exact hfor

/-- The head of a loop is read as one. -/
theorem statement_heading (count n : Nat) :
    Statement.ofString n (heading count) = .ok (.header ⟨"i", min count (2 ^ 64 - 1)⟩) := by
  have h := Grammar.Header.loop "i" (toString count)
  rw [Token.decimal_toString] at h
  exact Statement.ofTokens_eq_header_iff.2 ⟨_, h, Tokens.ofChars_written (written_heading count)⟩

end Item

/-! ## Lines of a listing -/

namespace Instruction

variable {i : Instruction} {text : String}

/-- No blank stands around a written instruction. -/
theorem Written.trim_eq (h : i.Written text) : Text.trim text.toList = text.toList := by
  obtain @⟨word, quote, hword, -, -⟩ := h
  obtain ⟨c, cs, hcs, hblank, -⟩ := (Token.spelling_word (Keyword.isWord_of_mem_words hword)).head
  have htext : (word ++ "(" ++ i.argument quote ++ ")").toList =
      c :: (cs ++ '(' :: (i.argument quote).toList) ++ [')'] := by simp [hcs]
  rw [htext, Text.trim_eq_self hblank (by decide)]

theorem Written.event?_eq {l : Line} (h : i.Written l.text) (hi : i.Readable) :
    l.event? = some (.command i.command) := by
  rw [Line.event?, Line.statement, h.statement_eq hi]

/-- What a written instruction is in the body of a loop: a line that belongs there, opens no loop of
its own and gives its command. -/
theorem Indented.ofText_eq (h : i.Indented text) (hi : i.Readable) :
    (Line.ofText text).inBody ∧ (Line.ofText text).opensLoop = false ∧
      (Line.ofText text).event? = some (.command i.command) := by
  obtain @⟨blanks, text, hne, hblanks, htext⟩ := h
  obtain ⟨n, hn⟩ := Line.ofText_append hne hblanks htext.trim_eq
  rw [hn]
  exact ⟨by simp [Line.inBody], htext.opensLoop_eq, htext.event?_eq hi⟩

end Instruction

namespace Item

theorem trim_heading (count : Nat) :
    Text.trim (heading count).toList = (heading count).toList := by
  have hheading : (heading count).toList =
      'f' :: ("or i in range(".toList ++ (toString count).toList ++ [')']) ++ [':'] := by
    simp [toList_heading]
  rw [hheading, Text.trim_eq_self (by decide) (by decide)]

/-- The piece with a count that fits in 64 bits. -/
def saturated : Item → Item
  | single i => single i
  | loop count body => loop (min count (2 ^ 64 - 1)) body

end Item

/-- The lines of a body give its commands. -/
theorem Line.of_forall₂_indented {body : List Instruction} {lines : List String}
    (h : List.Forall₂ Instruction.Indented body lines) (hbody : ∀ i ∈ body, i.Readable) :
    (∀ l ∈ lines.map ofText, l.inBody) ∧ (∀ l ∈ lines.map ofText, l.opensLoop = false) ∧
      (lines.map ofText).filterMap event? = (body.map Instruction.command).map .command := by
  induction h with
  | nil => simp
  | @cons i text body lines htext _ ih =>
    rw [List.forall_mem_cons] at hbody
    obtain ⟨hin, hloop, hevent⟩ := htext.ofText_eq hbody.1
    obtain ⟨hins, hloops, hevents⟩ := ih hbody.2
    refine ⟨List.forall_mem_cons.2 ⟨hin, hins⟩, List.forall_mem_cons.2 ⟨hloop, hloops⟩, ?_⟩
    rw [List.map_cons, List.filterMap_cons_some hevent, hevents]
    rfl

/-- The stream of a written piece. It goes on no loop before it. -/
theorem Item.stream_listing {item : Item} {lines : List String} (h : item.Listing lines)
    (hitem : item.Readable) :
    Line.stream (lines.map Line.ofText) = item.saturated.commands.map .command ∧
      ∀ rest, Line.Detached rest → Line.Detached (lines.map Line.ofText ++ rest) := by
  cases h with
  | @single i text h =>
    rw [List.map_singleton, Line.ofText_of_trim h.trim_eq]
    have hevent : (⟨0, 0, text⟩ : Line).event? = some (.command i.command) := h.event?_eq hitem
    have hheader : Section.header? ⟨0, 0, text⟩ = none :=
      Line.header?_eq_none_of_opensLoop h.opensLoop_eq
    constructor
    · rw [Line.stream_cons_of_header?_eq_none hheader, hevent, Line.stream_nil, List.append_nil]
      rfl
    · exact fun rest hrest ↦ Line.detached_append (by simp) hrest
  | @loop body lines count h =>
    -- The head is in column 0, so no loop before it goes on here, whatever comes next.
    rw [List.map_cons, Line.ofText_of_trim (trim_heading count)]
    obtain ⟨hins, hloops, hevents⟩ := Line.of_forall₂_indented h hitem
    have hheader : Section.header? ⟨0, 0, heading count⟩ = some ⟨"i", min count (2 ^ 64 - 1)⟩ :=
      Section.header?_eq_some_iff.2 (statement_heading count 0)
    constructor
    · have hstream := Line.stream_loop hheader hins hloops (show Line.body [] = [] from rfl)
      rw [List.append_nil, Line.stream_nil, List.append_nil, hevents, ← List.map_replicate,
        ← List.map_flatten, Event.upToFault_map_command] at hstream
      exact hstream
    · exact fun rest _ ↦ Line.detached_cons_of_header? hheader rfl _

/-! ## Lines and newlines -/

namespace Instruction

theorem newline_notMem_argument {i : Instruction} {quote : Char}
    (hquote : quote = '\'' ∨ quote = '"') (hi : i.Readable) :
    '\n' ∉ (i.argument quote).toList := by
  have hangle (a : Int) : '\n' ∉ (toString a).toList := by
    cases a with
    | ofNat n => exact Token.newline_notMem_toString n
    | negSucc n =>
      rw [toList_toString_negSucc, List.mem_cons, not_or]
      exact ⟨by decide, Token.newline_notMem_toString (n + 1)⟩
  cases i with
  | forward d => exact Token.newline_notMem_toString d
  | backward d => exact Token.newline_notMem_toString d
  | left a => exact hangle a
  | right a => exact hangle a
  | penColor s =>
    have hne : '\n' ≠ quote := by
      rcases hquote with rfl | rfl
      · decide
      · decide
    simp [argument, hne, hi.1]
  | penUp => simp [argument]
  | penDown => simp [argument]

theorem Written.newline_notMem {i : Instruction} {text : String} (h : i.Written text)
    (hi : i.Readable) : '\n' ∉ text.toList := by
  obtain @⟨word, quote, hword, hquote, -⟩ := h
  have hwords : ∀ entry ∈ Keyword.words, '\n' ∉ entry.1.toList := by decide
  simp [hwords _ hword, newline_notMem_argument hquote hi]

theorem Indented.newline_notMem {i : Instruction} {text : String} (h : i.Indented text)
    (hi : i.Readable) : '\n' ∉ text.toList := by
  obtain @⟨blanks, text, -, hblanks, htext⟩ := h
  rw [String.toList_append, List.mem_append, not_or]
  exact ⟨fun h ↦ absurd (hblanks _ h) (by decide), htext.newline_notMem hi⟩

end Instruction

/-- The lines of a written piece are lines. -/
theorem Item.newline_notMem {item : Item} {lines : List String} (h : item.Listing lines)
    (hitem : item.Readable) : ∀ s ∈ lines, '\n' ∉ s.toList := by
  cases h with
  | single h => exact List.forall_mem_singleton.2 (h.newline_notMem hitem)
  | @loop body lines count h =>
    refine List.forall_mem_cons.2 ⟨?_, ?_⟩
    · rw [toList_heading, List.mem_append, List.mem_append, not_or, not_or]
      exact ⟨⟨by decide, Token.newline_notMem_toString count⟩, by decide⟩
    · induction h with
      | nil => simp
      | cons htext _ ih =>
        rw [Readable, List.forall_mem_cons] at hitem
        exact List.forall_mem_cons.2 ⟨htext.newline_notMem hitem.1, ih hitem.2⟩

namespace Program

/-- The lines of a listing are lines. -/
theorem newline_notMem {p : Program} {lines : List String} (h : p.Listing lines)
    (hp : p.Readable) : ∀ s ∈ lines, '\n' ∉ s.toList := by
  induction h with
  | nil => simp
  | cons hitem _ ih =>
    rw [Readable, List.forall_mem_cons] at hp
    exact List.forall_mem_append.2 ⟨Item.newline_notMem hitem hp.1, ih hp.2⟩

/-! ## The stream of a listing -/

/-- The program with counts that fit in 64 bits. -/
def saturated (p : Program) : Program := p.map Item.saturated

/-- The stream of a listing is that of its program, with counts that fit in 64 bits. -/
theorem stream_listing {p : Program} {lines : List String} (h : p.Listing lines)
    (hp : p.Readable) :
    Line.stream (lines.map Line.ofText) = p.saturated.commands.map .command ∧
      Line.Detached (lines.map Line.ofText) := by
  induction h with
  | nil => simp [saturated, commands, Line.Detached, Line.body]
  | @cons item p lines more hitem _ ih =>
    rw [Readable, List.forall_mem_cons] at hp
    obtain ⟨hfirst, hdetached⟩ := Item.stream_listing hitem hp.1
    obtain ⟨hmore, hrest⟩ := ih hp.2
    rw [List.map_append]
    refine ⟨?_, hdetached _ hrest⟩
    rw [Line.stream_append _ hrest, hfirst, hmore, ← List.map_append, Event.upToFault_map_command]
    rfl

end Program

/-! ## There are listings -/

theorem Keyword.exists_word (keyword : Keyword) : ∃ word, (word, keyword) ∈ words := by
  cases keyword with
  | forward => exact ⟨"forward", by decide⟩
  | backward => exact ⟨"backward", by decide⟩
  | left => exact ⟨"left", by decide⟩
  | right => exact ⟨"right", by decide⟩
  | penColor => exact ⟨"pencolor", by decide⟩
  | penUp => exact ⟨"penup", by decide⟩
  | penDown => exact ⟨"pendown", by decide⟩

namespace Instruction

theorem Readable.exists_quote {i : Instruction} (hi : i.Readable) :
    ∃ quote, (quote = '\'' ∨ quote = '"') ∧ ∀ s, i = penColor s → quote ∉ s.toList := by
  by_cases hquote : ∃ s, i = penColor s ∧ '\'' ∈ s.toList
  · obtain ⟨s, rfl, hs⟩ := hquote
    refine ⟨'"', .inr rfl, ?_⟩
    rintro _ ⟨rfl⟩ hs'
    exact hi.2 ⟨hs, hs'⟩
  · exact ⟨'\'', .inl rfl, fun s hi hs ↦ hquote ⟨s, hi, hs⟩⟩

theorem Readable.exists_written {i : Instruction} (hi : i.Readable) : ∃ text, i.Written text := by
  obtain ⟨word, hword⟩ := i.keyword.exists_word
  obtain ⟨quote, hquote, hcolor⟩ := hi.exists_quote
  exact ⟨_, .call hword hquote hcolor⟩

theorem Readable.exists_indented {i : Instruction} (hi : i.Readable) : ∃ text, i.Indented text := by
  obtain ⟨text, h⟩ := hi.exists_written
  exact ⟨"\t" ++ text, .indent (by decide) (by simp) h⟩

end Instruction

theorem Item.Readable.exists_listing {item : Item} (h : item.Readable) :
    ∃ lines, item.Listing lines := by
  cases item with
  | single i =>
    obtain ⟨text, htext⟩ := Instruction.Readable.exists_written h
    exact ⟨[text], .single htext⟩
  | loop count body =>
    suffices hbody : ∃ lines, List.Forall₂ Instruction.Indented body lines by
      obtain ⟨lines, hlines⟩ := hbody
      exact ⟨_, .loop count hlines⟩
    induction body with
    | nil => exact ⟨[], .nil⟩
    | cons i body ih =>
      rw [Item.Readable, List.forall_mem_cons] at h
      obtain ⟨text, htext⟩ := h.1.exists_indented
      obtain ⟨lines, hlines⟩ := ih h.2
      exact ⟨text :: lines, .cons htext hlines⟩

/-- What can be read back can be written. -/
theorem Program.Readable.exists_listing {p : Program} (hp : p.Readable) :
    ∃ lines, p.Listing lines := by
  induction p with
  | nil => exact ⟨[], .nil⟩
  | cons item p ih =>
    rw [Program.Readable, List.forall_mem_cons] at hp
    obtain ⟨lines, hlines⟩ := hp.1.exists_listing
    obtain ⟨more, hmore⟩ := ih hp.2
    exact ⟨lines ++ more, .cons hlines hmore⟩

end TurtleGraphics
