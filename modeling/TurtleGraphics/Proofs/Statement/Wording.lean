import TurtleGraphics.Cursor
import TurtleGraphics.Proofs.Cursor.Zero
import TurtleGraphics.Proofs.Statement.Count

/-!
# Other words for the same

A command can be put in other words: with another word of its kind, with another qualifier or none,
with a plus in front of its angle or without, and a turn to the left as a turn to the right by the
opposite angle. A loop can count with another name. None of this changes what comes of the line.
Main statements: `Grammar.Reworded.order` and `Grammar.Reworded.header`.
-/

namespace TurtleGraphics

/-- Whether the commands do the same to every cursor. -/
def Command.Same (c c' : Command) : Prop := ∀ s, c.effect s = c'.effect s

theorem Command.Same.refl (c : Command) : c.Same c := fun _ ↦ rfl

namespace Grammar

/-! ## Angles -/

/-- The ways to write an angle that is not negative. -/
def unsigned (d : String) : List (List Token) := [[.number d none], [.plus, .number d none]]

/-- How a negative angle is written. -/
def negated (d : String) : List Token := [.minus, .number d none]

/-- Whether the angles are written as opposite. -/
inductive Opposite : List Token → List Token → Prop
  | negate {d : String} {z : List Token} (h : z ∈ unsigned d) : Opposite z (negated d)
  | restore {d : String} {z : List Token} (h : z ∈ unsigned d) : Opposite (negated d) z

theorem angle_unsigned_iff {d : String} {z : List Token} {x : Float} (h : z ∈ unsigned d) :
    Angle z x ↔ Distance [.number d none] x := by
  simp only [unsigned, List.mem_cons, List.not_mem_nil, or_false] at h
  rcases h with rfl | rfl
  · constructor
    · rintro ⟨hx⟩
      assumption
    · exact .bare
  · constructor
    · intro hz
      cases hz with
      | bare hx => cases hx
      | plus hx => exact hx
    · exact .plus

theorem angle_negated_iff {d : String} {x : Float} :
    Angle (negated d) x ↔ ∃ y, Distance [.number d none] y ∧ x = -y := by
  constructor
  · intro hz
    cases hz with
    | bare hx => cases hx
    | minus hx => exact ⟨_, hx, rfl⟩
  · rintro ⟨y, hy, rfl⟩
    exact .minus hy

/-- Opposite angles have opposite values. -/
theorem Opposite.angle {z z' : List Token} {x : Float} (h : Opposite z z') (hx : Angle z x) :
    Angle z' (-x) := by
  cases h with
  | negate hz => exact angle_negated_iff.2 ⟨x, (angle_unsigned_iff hz).1 hx, rfl⟩
  | restore hz =>
    obtain ⟨y, hy, rfl⟩ := angle_negated_iff.1 hx
    rw [Binary64.neg_neg]
    exact (angle_unsigned_iff hz).2 hy

/-! ## Calls -/

/-- The tokens of a command with the given qualifier, word and argument. -/
def call (q : List Token) (w : String) (z : List Token) : List Token :=
  q ++ .word w :: ([.leftParen] ++ z ++ [.rightParen])

/-- The qualifier, the word and the argument of a command are where they stand. -/
theorem order_call_iff {q z : List Token} {w : String} {c : Command} (hq : Qualifier q) :
    Order (call q w z) c ↔ ∃ k, (w, k) ∈ Keyword.words ∧ Argument k z c := by
  constructor
  · intro h
    generalize hl : call q w z = l at h
    obtain @⟨q', _, w', k, c, hq', hw', hcall⟩ := h
    cases hcall
    rename_i z' hz'
    have hsame : w = w' ∧ z = z' := by
      cases hq with
      | absent =>
        cases hq' with
        | absent => simpa [call] using hl
        | word => simp [call] at hl
      | word =>
        cases hq' with
        | absent => simp [call] at hl
        | word =>
          simp only [call, List.cons_append, List.nil_append, List.cons.injEq, Token.word.injEq,
            true_and, List.append_cancel_right_eq] at hl
          exact hl.2
    obtain ⟨rfl, rfl⟩ := hsame
    exact ⟨k, hw', hz'⟩
  · rintro ⟨k, hw, hz⟩
    exact .call hq hw (.parens hz)

/-- No command is a header. -/
theorem not_header_call {q z : List Token} {w : String} {h : LoopHeader} (hq : Qualifier q) :
    ¬ Header (call q w z) h := by
  intro hheader
  generalize hl : call q w z = l at hheader
  cases hheader with
  | loop v d =>
    cases hq with
    | absent => simp [call] at hl
    | word => simp [call] at hl

/-- No header is a command. -/
theorem not_order_tokens {v d : String} {c : Command} : ¬ Order (LoopHeader.tokens v d) c := by
  intro horder
  have hcommand : Statement.ofTokens 0 (.ofList (LoopHeader.tokens v d)) = .ok (.command c) :=
    Statement.ofTokens_eq_command_iff.2 ⟨_, horder, rfl⟩
  have hheader : Statement.ofTokens 0 (.ofList (LoopHeader.tokens v d)) =
      .ok (.header ⟨v, min (Token.decimal d) (2 ^ 64 - 1)⟩) :=
    Statement.ofTokens_eq_header_iff.2 ⟨_, .loop v d, rfl⟩
  cases hcommand.symm.trans hheader

/-! ## Rewording -/

/-- One way to say the same in other words. -/
inductive Reworded : List Token → List Token → Prop
  /-- Another word of the same kind. -/
  | keyword {q z : List Token} {w w' : String} {k : Keyword} (hq : Qualifier q)
      (hw : (w, k) ∈ Keyword.words) (hw' : (w', k) ∈ Keyword.words) :
      Reworded (call q w z) (call q w' z)
  /-- Another qualifier, or one where there was none, or none where there was one. -/
  | qualifier {q q' z : List Token} {w : String} (hq : Qualifier q) (hq' : Qualifier q') :
      Reworded (call q w z) (call q' w z)
  /-- A plus in front of an angle, or none. -/
  | plus {q z z' : List Token} {w d : String} {k : Keyword} (hq : Qualifier q)
      (hw : (w, k) ∈ Keyword.words) (hk : k = .left ∨ k = .right) (hz : z ∈ unsigned d)
      (hz' : z' ∈ unsigned d) : Reworded (call q w z) (call q w z')
  /-- A turn to the left as one to the right. -/
  | right {q z z' : List Token} {w w' : String} (hq : Qualifier q)
      (hw : (w, .left) ∈ Keyword.words) (hw' : (w', .right) ∈ Keyword.words)
      (hz : Opposite z z') : Reworded (call q w z) (call q w' z')
  /-- A turn to the right as one to the left. -/
  | left {q z z' : List Token} {w w' : String} (hq : Qualifier q)
      (hw : (w, .right) ∈ Keyword.words) (hw' : (w', .left) ∈ Keyword.words)
      (hz : Opposite z z') : Reworded (call q w z) (call q w' z')
  /-- Another name to count with. -/
  | counter (v v' d : String) : Reworded (LoopHeader.tokens v d) (LoopHeader.tokens v' d)

theorem keyword_unique {w : String} {k k' : Keyword} (h : (w, k) ∈ Keyword.words)
    (h' : (w, k') ∈ Keyword.words) : k = k' :=
  Option.some.inj ((Keyword.ofWord?_eq_some_iff.2 h).symm.trans (Keyword.ofWord?_eq_some_iff.2 h'))

/-- A command in other words is a command that does the same. -/
theorem Reworded.order {l l' : List Token} {c : Command} (h : Reworded l l') (hc : Order l c) :
    ∃ c', Order l' c' ∧ c.Same c' := by
  cases h with
  | keyword hq hw hw' =>
    obtain ⟨k, hk, hz⟩ := (order_call_iff hq).1 hc
    obtain rfl := keyword_unique hw hk
    exact ⟨c, (order_call_iff hq).2 ⟨_, hw', hz⟩, .refl c⟩
  | qualifier hq hq' =>
    exact ⟨c, (order_call_iff hq').2 ((order_call_iff hq).1 hc), .refl c⟩
  | plus hq hw hside hz hz' =>
    obtain ⟨k, hk, harg⟩ := (order_call_iff hq).1 hc
    obtain rfl := keyword_unique hw hk
    refine ⟨c, (order_call_iff hq).2 ⟨_, hw, ?_⟩, .refl c⟩
    have hangle {x : Float} (hx : Angle _ x) : Angle _ x :=
      (angle_unsigned_iff hz').2 ((angle_unsigned_iff hz).1 hx)
    rcases hside with rfl | rfl
    · obtain ⟨x, hx, rfl⟩ := harg
      exact ⟨x, hangle hx, rfl⟩
    · obtain ⟨x, hx, rfl⟩ := harg
      exact ⟨x, hangle hx, rfl⟩
  | right hq hw hw' hz =>
    obtain ⟨k, hk, harg⟩ := (order_call_iff hq).1 hc
    obtain rfl := keyword_unique hw hk
    obtain ⟨x, hx, rfl⟩ := harg
    refine ⟨.right (-x), (order_call_iff hq).2 ⟨_, hw', -x, hz.angle hx, rfl⟩, fun s ↦ ?_⟩
    rw [Command.effect, Command.effect, Binary64.neg_neg]
  | left hq hw hw' hz =>
    obtain ⟨k, hk, harg⟩ := (order_call_iff hq).1 hc
    obtain rfl := keyword_unique hw hk
    obtain ⟨x, hx, rfl⟩ := harg
    exact ⟨.left (-x), (order_call_iff hq).2 ⟨_, hw', -x, hz.angle hx, rfl⟩, fun _ ↦ rfl⟩
  | counter v v' d => exact absurd hc not_order_tokens

/-- A header in other words repeats as often. -/
theorem Reworded.header {l l' : List Token} {h : LoopHeader} (hl : Reworded l l')
    (hh : Header l h) : ∃ h', Header l' h' ∧ h.count = h'.count := by
  cases hl with
  | keyword hq | plus hq | right hq | left hq | qualifier hq =>
    exact absurd hh (not_header_call hq)
  | counter v v' d =>
    cases hh
    exact ⟨_, .loop v' d, rfl⟩

end Grammar

end TurtleGraphics
