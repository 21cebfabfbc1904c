import TurtleGraphics.Proofs.Binary64.Arithmetic
import TurtleGraphics.Proofs.Run.Replay
import TurtleGraphics.Proofs.Script.Listing

/-!
# Scripts as they are written

What is carried out of a script are lines: each as often as the loop around it says, up to the first
that holds a fault. A line that gives a command has its number written in it, exactly and with its
sign, and the command holds the float that this is rounded to. Main statements:

* `Command.ofScript_eq_filterMap`: the commands of a script are those of the lines carried out;
* `Line.roundsTo_instruction`: a command is the instruction of its line, its number rounded;
* `Instruction.forall₂_ofScript`: so are the commands of a script, one by one.
-/

namespace TurtleGraphics

/-! ## The lines carried out -/

namespace Section

/-- The lines of the section as they are carried out, the body of a loop as often as its header
asks. Of a loop with a loop in its body, that is the line where the fault is found. -/
def written : Section → List Line
  | .line l => [l]
  | .loop _ header body =>
    match body.find? Line.opensLoop with
    | some l => [l]
    | none => (List.replicate header.count body).flatten

theorem written_subset (s : Section) : s.written ⊆ s.lines := by
  cases s with
  | line l => exact List.Subset.refl _
  | loop head header body =>
    intro l hl
    rw [written] at hl
    refine List.mem_cons_of_mem head ?_
    split at hl
    · rename_i l' hfind
      rw [List.mem_singleton.1 hl]
      exact List.mem_of_find?_eq_some hfind
    · obtain ⟨body', hbody', hl⟩ := List.mem_flatten.1 hl
      rwa [List.eq_of_mem_replicate hbody'] at hl

end Section

namespace Line

/-- Whether the line can be carried out: it is neither at fault nor the head of a loop. -/
def isPlain (l : Line) : Bool :=
  match l.statement with
  | .ok (.command _) | .ok .blank | .ok .other => true
  | .ok (.header _) | .error _ => false

/-- The lines that are carried out, in that order. -/
def carriedOut (lines : List Line) : List Line :=
  ((sections lines).flatMap Section.written).takeWhile isPlain

/-- The command that the line gives. -/
def command? (l : Line) : Option Command :=
  match l.statement with
  | .ok (.command c) => some c
  | _ => none

theorem carriedOut_subset (lines : List Line) : carriedOut lines ⊆ lines := by
  intro l hl
  obtain ⟨s, hs, hl⟩ := List.mem_flatMap.1 ((List.takeWhile_sublist _).subset hl)
  rw [← flatMap_lines_sections lines]
  exact List.mem_flatMap.2 ⟨s, hs, s.written_subset hl⟩

/-- The commands of lines that are no headers, and of what comes after them. -/
theorem commands_upToFault_append {ls rest : List Line} {es : List Event}
    (hls : ∀ l ∈ ls, Section.header? l = none)
    (h : Event.commands (Event.upToFault es) = (rest.takeWhile isPlain).filterMap command?) :
    Event.commands (Event.upToFault (ls.filterMap event? ++ es)) =
      ((ls ++ rest).takeWhile isPlain).filterMap command? := by
  induction ls with
  | nil => exact h
  | cons l ls ih =>
    obtain ⟨hl, hls⟩ := List.forall_mem_cons.1 hls
    have ih := ih hls
    cases hstatement : l.statement with
    | error fault => simp [event?, isPlain, hstatement]
    | ok s =>
      cases s with
      | header header => simp [Section.header?, hstatement] at hl
      | command c => simpa [event?, isPlain, command?, hstatement] using ih
      | blank | other => simpa [event?, isPlain, command?, hstatement] using ih

/-- A line that opens a loop is not carried out by itself. -/
theorem isPlain_eq_false_of_opensLoop {l : Line} (h : l.opensLoop = true) : l.isPlain = false := by
  rw [isPlain, statement, Statement.ofString]
  rw [opensLoop] at h
  cases hts : Tokens.ofString l.text with
  | finished | broken fault =>
    rw [hts] at h
    cases h
  | cons t ts =>
    rw [hts] at h
    cases t with
    | word w =>
      have hw : w = "for" := of_decide_eq_true h
      simp only [Statement.ofTokens, if_pos hw]
      cases LoopHeader.ofTokens ts with
      | error complaint => rfl
      | ok header => rfl
    | _ => cases h

theorem commands_stream (lines : List Line) :
    Event.commands (stream lines) = (carriedOut lines).filterMap command? := by
  rw [stream_eq_sections, carriedOut]
  fun_induction sections lines with
  | case1 => rfl
  | case2 l rest hl ih =>
    exact @commands_upToFault_append [l] _ _ (by simpa using hl) ih
  | case3 l rest header hl ih =>
    rw [List.flatMap_cons, List.flatMap_cons, Section.events, Section.written, nested?]
    cases hfind : (body rest).find? opensLoop with
    | some nested =>
      have hplain := isPlain_eq_false_of_opensLoop (List.find?_some hfind)
      simp [hplain]
    | none =>
      have hbody : ∀ x ∈ (List.replicate header.count (body rest)).flatten,
          Section.header? x = none := by
        intro x hx
        obtain ⟨body', hbody', hx⟩ := List.mem_flatten.1 hx
        rw [List.eq_of_mem_replicate hbody'] at hx
        exact header?_eq_none_of_opensLoop (by simpa using List.find?_eq_none.1 hfind x hx)
      have happend := commands_upToFault_append hbody ih
      rwa [List.filterMap_flatten, List.map_replicate] at happend

end Line

/-- The commands of a script are those of the lines that are carried out. -/
theorem Command.ofScript_eq_filterMap (script : String) :
    Command.ofScript script = (Line.carriedOut (Line.ofScript script)).filterMap Line.command? :=
  Line.commands_stream _

/-- Every command of a script is that of one of its lines. -/
theorem Command.exists_line_of_mem_ofScript {script : String} {c : Command}
    (h : c ∈ Command.ofScript script) :
    ∃ l ∈ Line.ofScript script, l.statement = .ok (.command c) := by
  rw [Command.ofScript_eq_filterMap] at h
  obtain ⟨l, hl, hc⟩ := List.mem_filterMap.1 h
  refine ⟨l, Line.carriedOut_subset _ hl, ?_⟩
  unfold Line.command? at hc
  split at hc
  · rename_i c' hstatement
    rw [hstatement, Option.some.inj hc]
  · cases hc

/-! ## Numbers as they are written -/

/-- The first whole number among the tokens, turned around by each minus before it. -/
def Tokens.amount : Tokens → ℤ
  | cons .minus rest => -rest.amount
  | cons (.number whole _) _ => Token.decimal whole
  | cons _ rest => rest.amount
  | finished | broken _ => 0

namespace Instruction

/-- The instruction to do what the command does, but with the given number. -/
def ofCommand (n : ℤ) : Command → Instruction
  | .forward _ => forward n.toNat
  | .backward _ => backward n.toNat
  | .left _ => left n
  | .right _ => right n
  | .penColor color => penColor color
  | .penUp => penUp
  | .penDown => penDown

/-- Whether the command is the instruction with its number rounded to a finite float. -/
inductive RoundsTo : Instruction → Command → Prop
  | forward {d : Nat} {x : Float} (h : Binary64.IsRounding d x) (hx : x.isFinite = true) :
    RoundsTo (forward d) (.forward x)
  | backward {d : Nat} {x : Float} (h : Binary64.IsRounding d x) (hx : x.isFinite = true) :
    RoundsTo (backward d) (.backward x)
  | left {a : ℤ} {x : Float} (h : Binary64.IsRounding a x) (hx : x.isFinite = true) :
    RoundsTo (left a) (.left x)
  | right {a : ℤ} {x : Float} (h : Binary64.IsRounding a x) (hx : x.isFinite = true) :
    RoundsTo (right a) (.right x)
  | penColor (color : String) : RoundsTo (penColor color) (.penColor color)
  | penUp : RoundsTo penUp .penUp
  | penDown : RoundsTo penDown .penDown

end Instruction

/-- The instruction that the line gives, with the number that is written in it. -/
def Line.instruction? (l : Line) : Option Instruction :=
  l.command?.map (.ofCommand (Tokens.ofString l.text).amount)

/-- The instructions that are carried out, each as often as the script asks for it. -/
def Instruction.ofScript (script : String) : List Instruction :=
  (Line.carriedOut (Line.ofScript script)).filterMap Line.instruction?

theorem Instruction.roundsTo_of_argument {keyword : Keyword} {l : List Token} {c : Command}
    (h : Grammar.Argument keyword l c) (rest : Tokens) :
    RoundsTo (.ofCommand (Tokens.prepend l rest).amount c) c := by
  have hnat (n : Nat) : Binary64.IsRounding ((n : ℤ) : ℚ) (.ofNat n) := by
    rw [Int.cast_natCast]
    exact Binary64.isRounding_ofNat n
  have hneg (n : Nat) : Binary64.IsRounding ((-n : ℤ) : ℚ) (-.ofNat n) := by
    rw [Int.cast_neg]
    exact (hnat n).neg
  have hangle {l : List Token} {x : Float} (h : Grammar.Angle l x) :
      Binary64.IsRounding (Tokens.prepend l rest).amount x ∧ x.isFinite = true := by
    cases h with
    | bare h | plus h =>
      obtain ⟨hfinite⟩ := h
      exact ⟨hnat _, hfinite⟩
    | minus h =>
      obtain ⟨hfinite⟩ := h
      exact ⟨hneg _, (Binary64.isFinite_neg _).trans hfinite⟩
  cases keyword with
  | forward =>
    obtain ⟨x, ⟨hfinite⟩, rfl⟩ := h
    exact .forward (Binary64.isRounding_ofNat _) hfinite
  | backward =>
    obtain ⟨x, ⟨hfinite⟩, rfl⟩ := h
    exact .backward (Binary64.isRounding_ofNat _) hfinite
  | left =>
    obtain ⟨x, hx, rfl⟩ := h
    exact .left (hangle hx).1 (hangle hx).2
  | right =>
    obtain ⟨x, hx, rfl⟩ := h
    exact .right (hangle hx).1 (hangle hx).2
  | penColor =>
    obtain ⟨color, -, rfl⟩ := h
    exact .penColor color
  | penUp =>
    obtain ⟨-, rfl⟩ := h
    exact .penUp
  | penDown =>
    obtain ⟨-, rfl⟩ := h
    exact .penDown

/-- What stands around the argument of a command holds no number and no minus. -/
theorem Instruction.roundsTo_of_order {l : List Token} {c : Command} (h : Grammar.Order l c) :
    RoundsTo (.ofCommand (Tokens.ofList l).amount c) c := by
  obtain @⟨q, l, w, keyword, c, hq, -, ⟨hargument⟩⟩ := h
  have hrounds := roundsTo_of_argument hargument (.ofList [.rightParen])
  rw [Tokens.prepend_ofList] at hrounds
  cases hq with
  | absent => exact hrounds
  | word hw => exact hrounds

/-- A command is the instruction of its line, its number rounded. -/
theorem Line.roundsTo_instruction {l : Line} {c : Command}
    (h : l.statement = .ok (.command c)) :
    Instruction.RoundsTo (.ofCommand (Tokens.ofString l.text).amount c) c := by
  obtain ⟨ts, horder, hts⟩ := Statement.ofTokens_eq_command_iff.1 h
  rw [hts]
  exact Instruction.roundsTo_of_order horder

/-- The commands of a script are its instructions, their numbers rounded, one by one. -/
theorem Instruction.forall₂_ofScript (script : String) :
    List.Forall₂ RoundsTo (ofScript script) (Command.ofScript script) := by
  rw [Command.ofScript_eq_filterMap, ofScript]
  induction Line.carriedOut (Line.ofScript script) with
  | nil => exact .nil
  | cons l ls ih =>
    unfold Line.instruction? Line.command? at *
    rw [List.filterMap_cons, List.filterMap_cons]
    cases hl : l.statement with
    | error fault => simpa [hl] using ih
    | ok s =>
      cases s with
      | command c =>
        exact .cons (Line.roundsTo_instruction hl) ih
      | header header | blank | other => simpa [hl] using ih

end TurtleGraphics
