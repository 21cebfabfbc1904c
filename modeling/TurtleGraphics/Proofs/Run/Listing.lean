import TurtleGraphics.Proofs.Run.Replay
import TurtleGraphics.Proofs.Script.Listing

/-!
# Runs of listings

A listing of a program runs without a fault and does what the program says, whatever words, quotes
and indentation it was written with. A loop count is cut down to 64 bits when it is read, and no run
that is held to a ceiling of 64 bits can tell. Main statement: `Run.ofScript_listing`.
-/

namespace TurtleGraphics

/-! ## Commands under a ceiling -/

section

variable {α : Type} {m : Nat}

/-- What begins with the same elements and goes on with the same elements. -/
theorem take_append_congr {xs xs' ys ys' : List α} (hx : xs.take m = xs'.take m)
    (hy : ys.take m = ys'.take m) : (xs ++ ys).take m = (xs' ++ ys').take m := by
  have hlength : min m xs.length = min m xs'.length := by simpa using congrArg List.length hx
  have hroom : m - xs.length = m - xs'.length := by omega
  have hrest : ys.take (m - xs'.length) = ys'.take (m - xs'.length) := by
    have h := congrArg (List.take (m - xs'.length)) hy
    rwa [List.take_take, List.take_take, Nat.min_eq_left (Nat.sub_le m _)] at h
  rw [List.take_append, List.take_append, hx, hroom, hrest]

/-- Of a list that is repeated, no more repetitions are needed than elements. -/
theorem take_flatten_replicate_min {k : Nat} (h : m ≤ k) (n : Nat) (xs : List α) :
    (List.replicate (min n k) xs).flatten.take m = (List.replicate n xs).flatten.take m := by
  rcases Nat.le_total n k with hn | hn
  · rw [Nat.min_eq_left hn]
  · obtain ⟨more, rfl⟩ := Nat.exists_eq_add_of_le hn
    rw [Nat.min_eq_right hn, List.replicate_add, List.flatten_append]
    -- The first `k` repetitions are long enough, unless nothing is repeated at all.
    cases xs with
    | nil => simp
    | cons x xs =>
      have hlength : m ≤ (List.replicate k (x :: xs)).flatten.length := by
        rw [List.length_flatten, List.map_replicate, List.sum_replicate_nat, List.length_cons]
        exact h.trans (Nat.le_mul_of_pos_right k (Nat.succ_pos _))
      rw [List.take_append_of_le_length hlength]

end

/-- No ceiling of 64 bits shows that counts are cut down to 64 bits. -/
theorem Program.take_commands_saturated (p : Program) {ceiling : Nat} (h : ceiling < 2 ^ 64) :
    p.saturated.commands.take ceiling = p.commands.take ceiling := by
  have hitem (item : Item) :
      item.saturated.commands.take ceiling = item.commands.take ceiling := by
    cases item with
    | single i => rfl
    | loop count body => exact take_flatten_replicate_min (Nat.le_sub_one_of_lt h) count _
  induction p with
  | nil => rfl
  | cons item p ih => exact take_append_congr (hitem item) ih

/-! ## The run of a listing -/

namespace Line

/-- Empty lines add nothing. -/
theorem stream_append_replicate (lines : List Line) (n : Nat) :
    stream (lines ++ List.replicate n (ofText "")) = stream lines := by
  have htext : ∀ l ∈ List.replicate n (ofText ""), l.text = "" := by
    intro l hl
    rw [List.eq_of_mem_replicate hl]
    rfl
  have hdetached : Detached (List.replicate n (ofText "")) :=
    fun l hl ↦ htext l ((List.takeWhile_sublist _).subset hl)
  have hevents : (List.replicate n (ofText "")).filterMap event? = [] :=
    List.filterMap_eq_nil_iff.2 fun l hl ↦ event?_eq_none_of_text (htext l hl)
  rw [stream_append lines hdetached,
    stream_eq_filterMap fun l hl ↦ header?_eq_none_of_text (htext l hl), hevents]
  simp

end Line

namespace Run

/-- A program that can be read back has listings. Each of them, with or without empty lines behind
it, runs without a fault and obeys the commands of the program, every loop written out, as many as
the ceiling allows. Both the ceiling and the counts that are read have 64 bits; a program may ask
for more repetitions than that. -/
theorem ofScript_listing {p : Program} (hp : p.Readable) (options : Options)
    (h : options.maxSteps < 2 ^ 64) :
    (∃ lines, p.Listing lines) ∧ ∀ lines, p.Listing lines → ∀ blank : Nat,
      ofScript ("\n".intercalate (lines ++ List.replicate blank "")) options =
        ofCommands options.color (p.commands.take options.maxSteps) none := by
  refine ⟨hp.exists_listing, fun lines hlines blank ↦ ?_⟩
  rw [← p.take_commands_saturated h]
  refine ofScript_intercalate ?_ ?_ options
  · refine List.forall_mem_append.2 ⟨Program.newline_notMem hlines hp, fun s hs ↦ ?_⟩
    rw [List.eq_of_mem_replicate hs]
    exact List.not_mem_nil
  · rw [List.map_append, List.map_replicate, Line.stream_append_replicate]
    exact (Program.stream_listing hlines hp).1

/-- A colour with a quote and a `#` in it, and a loop that the ceiling cuts short. -/
theorem ofScript_listing_loop :
    let p : Program := [.single (.penColor "a'#"), .loop 2 [.forward 10, .left (-90)]]
    let lines := ["color(\"a'#\")", "for i in range(2):", " \tfd(10)", "\tleft(-90)"]
    p.Readable ∧ p.Listing lines ∧ 3 < 2 ^ 64 ∧
      ofScript ("\n".intercalate (lines ++ List.replicate 1 "")) { maxSteps := 3, color := "red" } =
        ofCommands "red" (p.commands.take 3) none := by
  intro p lines
  have hcolor : (Instruction.penColor "a'#").Written "color(\"a'#\")" :=
    @Instruction.Written.call _ "color" '"' (by decide) (by decide)
      fun s hs ↦ by cases hs; decide
  have hforward : (Instruction.forward 10).Indented " \tfd(10)" :=
    @Instruction.Indented.indent _ " \t" "fd(10)" (by decide) (by simp)
      (@Instruction.Written.call _ "fd" '"' (by decide) (by decide) fun s hs ↦ nomatch hs)
  have hleft : (Instruction.left (-90)).Indented "\tleft(-90)" :=
    @Instruction.Indented.indent _ "\t" "left(-90)" (by decide) (by simp)
      (@Instruction.Written.call _ "left" '"' (by decide) (by decide) fun s hs ↦ nomatch hs)
  have hlines : p.Listing lines :=
    .cons (.single hcolor) (.cons (.loop 2 (.cons hforward (.cons hleft .nil))) .nil)
  have hp : p.Readable := by decide +kernel
  have h := ofScript_listing hp { maxSteps := 3, color := "red" } (by decide)
  exact ⟨hp, hlines, by decide, h.2 lines hlines 1⟩

end Run

end TurtleGraphics
