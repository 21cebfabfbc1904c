import Mathlib.Data.List.DropRight
import TurtleGraphics.Proofs.Script.Numbering

/-!
# Lines in column 0

Moving a line to column 0 keeps what it says and takes it out of the loop body it stood in. Written
as text, a line gets there by losing its indentation (`Line.ofText_dropWhile_indents`) or all the
blanks around it (`Line.ofText_trim`); for the line that makes no difference.
-/

namespace TurtleGraphics

namespace Text

theorem trimEnd_eq_rdropWhile (cs : List Char) : trimEnd cs = cs.rdropWhile isBlank := rfl

/-- A trimmed text does not begin with a blank. -/
theorem dropWhile_isBlank_trim (cs : List Char) : (trim cs).dropWhile isBlank = trim cs := by
  rw [List.dropWhile_eq_self_iff]
  intro hpos
  have htrim : trim cs <+: cs.dropWhile isBlank := List.rdropWhile_prefix isBlank _
  rw [htrim.getElem hpos]
  exact List.dropWhile_get_zero_not isBlank cs (hpos.trans_le htrim.length_le)

/-- Trimming twice is trimming once. -/
theorem trim_trim (cs : List Char) : trim (trim cs) = trim cs := by
  rw [trim, dropWhile_isBlank_trim, trim, trimEnd_eq_rdropWhile, trimEnd_eq_rdropWhile,
    List.rdropWhile_idempotent]

theorem trim_append_of_isBlank {blanks cs : List Char} (h : ∀ c ∈ blanks, isBlank c) :
    trim (blanks ++ cs) = trim cs := by
  rw [trim, trim, List.dropWhile_append_of_pos h]

/-- A blank at the end is cut off. -/
theorem trim_concat {c : Char} (hc : isBlank c) (cs : List Char) : trim (cs ++ [c]) = trim cs := by
  rw [trim, trim, List.dropWhile_append]
  split
  · rename_i hcs
    rw [List.isEmpty_iff.1 hcs, List.dropWhile_cons_of_pos hc]
    rfl
  · rw [trimEnd_eq_rdropWhile, List.rdropWhile_concat_pos _ _ _ hc, ← trimEnd_eq_rdropWhile]

/-- Nothing is cut off a text that begins and ends with no blank. -/
theorem trim_eq_self {c d : Char} (hc : isBlank c = false) (hd : isBlank d = false)
    (cs : List Char) : trim (c :: cs ++ [d]) = c :: cs ++ [d] := by
  rw [trim, List.cons_append, List.dropWhile_cons_of_neg (by simp [hc]), ← List.cons_append,
    trimEnd_eq_rdropWhile, List.rdropWhile_concat_neg _ _ _ (by simp [hd])]

end Text

namespace Line

/-- What indents is blank. -/
theorem isBlank_of_indents {c : Char} (h : indents c) : Text.isBlank c := by
  simp only [indents, Bool.or_eq_true, decide_eq_true_eq] at h
  rcases h with rfl | rfl
  · decide
  · decide

theorem trim_dropWhile_indents (cs : List Char) :
    Text.trim (cs.dropWhile indents) = Text.trim cs := by
  have hblanks : ∀ c ∈ cs.takeWhile indents, Text.isBlank c :=
    fun c hc ↦ isBlank_of_indents (List.mem_takeWhile_imp hc)
  have hcs : cs.takeWhile indents ++ cs.dropWhile indents = cs := List.takeWhile_append_dropWhile
  rw [← Text.trim_append_of_isBlank hblanks, hcs]

/-- The line moved to column 0. -/
def outdent (l : Line) : Line := { l with indent := 0 }

@[simp] theorem indent_outdent (l : Line) : l.outdent.indent = 0 := rfl
@[simp] theorem event?_outdent (l : Line) : l.outdent.event? = l.event? := rfl
@[simp] theorem header?_outdent (l : Line) : Section.header? l.outdent = Section.header? l := rfl

/-- A line without its indentation is the line in column 0. -/
theorem ofText_dropWhile_indents (s : String) :
    ofText (String.ofList (s.toList.dropWhile indents)) = (ofText s).outdent := by
  have hindent : (s.toList.dropWhile indents).takeWhile indents = [] := by
    rw [List.takeWhile_eq_nil_iff]
    exact List.dropWhile_get_zero_not indents s.toList
  simp only [ofText, ofChars, outdent, String.toList_ofList, trim_dropWhile_indents, hindent,
    List.length_nil]

/-- A line without the blanks around it is the line in column 0. -/
theorem ofText_trim (s : String) :
    ofText (String.ofList (Text.trim s.toList)) = (ofText s).outdent := by
  have hindent : (Text.trim s.toList).takeWhile indents = [] := by
    rw [List.takeWhile_eq_nil_iff]
    intro hpos hc
    have hblank := List.dropWhile_eq_self_iff.1 (Text.dropWhile_isBlank_trim s.toList) hpos
    exact hblank (isBlank_of_indents hc)
  simp only [ofText, ofChars, outdent, String.toList_ofList, Text.trim_trim, hindent,
    List.length_nil]

/-- A line without blanks around it stands in column 0. -/
theorem ofText_of_trim {s : String} (h : Text.trim s.toList = s.toList) :
    ofText s = ⟨0, 0, s⟩ := by
  have hmoved := ofText_trim s
  have htext : (ofText s).text = s := by
    change String.ofList (Text.trim s.toList) = s
    rw [h, String.ofList_toList]
  rw [h, String.ofList_toList] at hmoved
  rw [hmoved, outdent, htext]
  rfl

/-- A line without blanks around it, moved in. -/
theorem ofText_append {blanks s : String} (hne : blanks ≠ "")
    (hblanks : ∀ c ∈ blanks.toList, c = ' ' ∨ c = '\t') (h : Text.trim s.toList = s.toList) :
    ∃ n, ofText (blanks ++ s) = ⟨0, n + 1, s⟩ := by
  have hindents : ∀ c ∈ blanks.toList, indents c := fun c hc ↦ by simpa [indents] using hblanks c hc
  obtain ⟨c, cs, hcs⟩ := List.exists_cons_of_ne_nil (mt String.toList_eq_nil_iff.1 hne)
  have htext : Text.trim (blanks ++ s).toList = s.toList := by
    rw [String.toList_append, Text.trim_append_of_isBlank, h]
    exact fun c hc ↦ isBlank_of_indents (hindents c hc)
  have hc : indents c := hindents c (hcs ▸ List.mem_cons_self)
  simp only [ofText, ofChars, htext, String.ofList_toList]
  rw [String.toList_append, hcs, List.cons_append, List.takeWhile_cons_of_pos hc]
  exact ⟨_, rfl⟩

/-- Whether `t` is the line `s` moved to column 0. -/
def Moved (s t : String) : Prop := '\n' ∉ t.toList ∧ ofText t = (ofText s).outdent

theorem moved_dropWhile_indents {s : String} (h : '\n' ∉ s.toList) :
    Moved s (String.ofList (s.toList.dropWhile indents)) := by
  refine ⟨fun hmem ↦ h ?_, ofText_dropWhile_indents s⟩
  rw [String.toList_ofList] at hmem
  exact (List.dropWhile_suffix _).subset hmem

theorem moved_trim {s : String} (h : '\n' ∉ s.toList) :
    Moved s (String.ofList (Text.trim s.toList)) := by
  refine ⟨fun hmem ↦ h ?_, ofText_trim s⟩
  obtain ⟨before, after, hs, -, -⟩ := Text.exists_trim s.toList
  rw [String.toList_ofList] at hmem
  rw [hs]
  exact List.mem_append_left _ (List.mem_append_right _ hmem)

theorem newline_notMem_of_moved {lines copy : List String} (h : List.Forall₂ Moved lines copy) :
    ∀ t ∈ copy, '\n' ∉ t.toList := by
  induction h with
  | nil => simp
  | cons ht _ ih => exact List.forall_mem_cons.2 ⟨ht.1, ih⟩

theorem map_ofText_of_moved {lines copy : List String} (h : List.Forall₂ Moved lines copy) :
    copy.map ofText = (lines.map ofText).map outdent := by
  induction h with
  | nil => rfl
  | cons ht _ ih => simp only [List.map_cons, ht.2, ih]

/-- A header in column 0 goes on no loop body. -/
theorem inBody_eq_false_of_header? {l : Line} {header : LoopHeader}
    (h : Section.header? l = some header) (hindent : l.indent = 0) : l.inBody = false := by
  have htext : l.text ≠ "" := by
    intro ht
    rw [header?_eq_none_of_text ht] at h
    exact Option.some_ne_none header h.symm
  simp [inBody, htext, hindent]

/-- Lines in column 0 end a loop before them, or they are without text and leave it to what comes
next. -/
theorem detached_append {lines rest : List Line} (h : ∀ l ∈ lines, l.indent = 0)
    (hrest : Detached rest) : Detached (lines ++ rest) := by
  induction lines with
  | nil => exact hrest
  | cons l lines ih =>
    intro x hx
    rw [body, List.cons_append, List.takeWhile_cons] at hx
    split at hx
    · rename_i hl
      rcases List.mem_cons.1 hx with rfl | hx
      · have hx0 : x.indent = 0 := h x List.mem_cons_self
        simpa [inBody, hx0] using hl
      · exact ih (fun y hy ↦ h y (List.mem_cons_of_mem l hy)) x hx
    · simp at hx

theorem detached_cons_of_header? {head : Line} {header : LoopHeader}
    (h : Section.header? head = some header) (hindent : head.indent = 0) (rest : List Line) :
    Detached (head :: rest) := by
  intro l hl
  have hhead := inBody_eq_false_of_header? h hindent
  rw [body, List.takeWhile_cons_of_neg (by simp [hhead])] at hl
  exact absurd hl List.not_mem_nil

/-! ### Several lines -/

theorem indent_of_mem_map_outdent {lines : List Line} : ∀ l ∈ lines.map outdent, l.indent = 0 := by
  intro l hl
  obtain ⟨l', -, rfl⟩ := List.mem_map.1 hl
  rfl

theorem header?_of_mem_map_outdent {lines : List Line} (h : ∀ l ∈ lines, l.opensLoop = false) :
    ∀ l ∈ lines.map outdent, Section.header? l = none := by
  intro l hl
  obtain ⟨l', hl', rfl⟩ := List.mem_map.1 hl
  exact header?_eq_none_of_opensLoop (h l' hl')

theorem filterMap_event?_map_outdent (lines : List Line) :
    (lines.map outdent).filterMap event? = lines.filterMap event? := by
  rw [List.filterMap_map]
  rfl

end Line

end TurtleGraphics
