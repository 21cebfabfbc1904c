import TurtleGraphics.Proofs.Run.Replay
import TurtleGraphics.Proofs.Script.Recount

/-!
# Large loop counts

Every repetition of a body with events makes a step, meets a fault or reaches the ceiling, and a
body without events is not repeated. So no loop needs more repetitions than the ceiling allows
commands, or than one if it allows none, and two counts that are not below that are as good as each
other: the same run is left behind if one stands in the place of the other, or if a count was
lowered because it did not fit in 64 bits. Main statement: `Run.ofScript_saturated`.
-/

namespace TurtleGraphics

namespace Trail

/-! ## Repetitions make steps -/

/-- Commands that are obeyed and leave the run on its way make a step each, and the ceiling has room
for them. -/
theorem size_of_followAll_eq_ok {maxSteps : Nat} {es : List Event} {t t' : Trail}
    (h : t.followAll maxSteps es = .ok t') :
    t'.steps.size = t.steps.size + es.length ∧ t'.steps.size ≤ max maxSteps t.steps.size := by
  induction es generalizing t with
  | nil =>
    cases h
    exact ⟨rfl, Nat.le_max_right _ _⟩
  | cons e es ih =>
    obtain ⟨next, hnext, hrest⟩ := bind_eq_ok.1 h
    cases e with
    | fault f => cases hnext
    | command c =>
      obtain ⟨hsize, hroom⟩ := ih hrest
      have hnext : next = t.record c ∧ next.steps.size ≤ maxSteps := by
        simp only [follow, obey] at hnext
        split at hnext
        · cases hnext
        · split at hnext
          · cases hnext
          · rename_i hle
            cases hnext
            exact ⟨rfl, Nat.not_lt.1 hle⟩
      obtain ⟨rfl, hle⟩ := hnext
      rw [size_record] at hsize hroom hle
      rw [List.length_cons]
      omega

/-- A repetition that leaves the run on its way has made a step. -/
theorem size_of_repeatAll_eq_ok {maxSteps n : Nat} {es : List Event} {t t' : Trail} (hes : es ≠ [])
    (h : t.repeatAll maxSteps es n = .ok t') :
    t.steps.size + n ≤ t'.steps.size ∧ t'.steps.size ≤ max maxSteps t.steps.size := by
  have hlength : 0 < es.length := List.length_pos_iff.2 hes
  induction n generalizing t with
  | zero =>
    cases h
    exact ⟨Nat.le_refl _, Nat.le_max_right _ _⟩
  | succ n ih =>
    obtain ⟨next, hnext, hrest⟩ := bind_eq_ok.1 h
    obtain ⟨hsize, hroom⟩ := size_of_followAll_eq_ok hnext
    obtain ⟨hsize', hroom'⟩ := ih hrest
    omega

/-- As many repetitions as the ceiling allows commands, and one at least, end every run. -/
theorem exists_repeatAll_eq_error {maxSteps n : Nat} {es : List Event} {t : Trail} (hes : es ≠ [])
    (ht : 0 < t.steps.size) (hn : max maxSteps 1 ≤ n) :
    ∃ e, t.repeatAll maxSteps es n = .error e := by
  cases h : t.repeatAll maxSteps es n with
  | error e => exact ⟨e, rfl⟩
  | ok t' =>
    obtain ⟨hsize, hroom⟩ := size_of_repeatAll_eq_ok hes h
    omega

theorem repeatAll_add (maxSteps : Nat) (es : List Event) (n k : Nat) (t : Trail) :
    t.repeatAll maxSteps es (n + k) =
      t.repeatAll maxSteps es n >>= repeatAll maxSteps es k := by
  induction n generalizing t with
  | zero => rw [Nat.zero_add]; rfl
  | succ n ih =>
    rw [Nat.succ_add, repeatAll, repeatAll, bind_assoc]
    exact bind_congr ih

/-- More repetitions make no difference. -/
theorem repeatAll_min {maxSteps : Nat} {es : List Event} {t : Trail} (hes : es ≠ [])
    (ht : 0 < t.steps.size) (n : Nat) :
    t.repeatAll maxSteps es (min n (max maxSteps 1)) = t.repeatAll maxSteps es n := by
  rcases Nat.le_total n (max maxSteps 1) with hle | hle
  · rw [Nat.min_eq_left hle]
  · obtain ⟨e, he⟩ := exists_repeatAll_eq_error hes ht (Nat.le_refl (max maxSteps 1))
    obtain ⟨k, rfl⟩ := Nat.exists_eq_add_of_le hle
    rw [Nat.min_eq_right hle, repeatAll_add, he]
    rfl

/-! ## Sections that differ in counts -/

theorem perform_congr {maxSteps : Nat} {s s' : Section} {t : Trail} (ht : 0 < t.steps.size)
    (h : s.Alike (max maxSteps 1) s') : t.perform maxSteps s = t.perform maxSteps s' := by
  cases h with
  | line hevent => simp only [perform, hevent]
  | @loop l l' header header' body body' hnested hevents hcount =>
    simp only [perform, hnested, hevents]
    split
    · rfl
    · split
      · rfl
      · rename_i hes
        calc
          t.repeatAll maxSteps _ header.count
              = t.repeatAll maxSteps _ (min header.count (max maxSteps 1)) :=
            (repeatAll_min hes ht _).symm
          _ = t.repeatAll maxSteps _ (min header'.count (max maxSteps 1)) := by rw [hcount]
          _ = t.repeatAll maxSteps _ header'.count := repeatAll_min hes ht _

/-- Sections that differ in large counts only are walked in the same way. -/
theorem performAll_congr {maxSteps : Nat} {ss ss' : List Section} {t : Trail}
    (ht : 0 < t.steps.size) (h : List.Forall₂ (Section.Alike (max maxSteps 1)) ss ss') :
    t.performAll maxSteps ss = t.performAll maxSteps ss' := by
  induction h generalizing t with
  | nil => rfl
  | @cons s s' ss ss' hs _ ih =>
    change t.perform maxSteps s >>= performAll maxSteps ss =
      t.perform maxSteps s' >>= performAll maxSteps ss'
    rw [perform_congr ht hs]
    cases hnext : t.perform maxSteps s' with
    | error e => rfl
    | ok next =>
      rw [perform_eq] at hnext
      exact ih (ht.trans_le ((size_of_followAll_eq_ok hnext).1 ▸ Nat.le_add_right _ _))

end Trail

namespace Line

/-- Digits can be replaced by digits in the lines of a script. -/
theorem newline_notMem_replace {script p d d' q : String} {before after : List String}
    (htexts : texts script = before ++ (p ++ d ++ q) :: after) (hd' : Token.IsDigits d') :
    ∀ s ∈ before ++ (p ++ d' ++ q) :: after, '\n' ∉ s.toList := by
  have hold : ∀ s ∈ before ++ (p ++ d ++ q) :: after, '\n' ∉ s.toList :=
    fun s hs ↦ newline_notMem_of_mem_texts (htexts ▸ hs)
  have hline := hold (p ++ d ++ q) (by simp)
  intro s hs
  rcases List.mem_append.1 hs with hs | hs
  · exact hold s (List.mem_append_left _ hs)
  · rcases List.mem_cons.1 hs with rfl | hs
    · have hdigit : '\n' ∉ d'.toList := fun hmem ↦
        absurd (List.all_eq_true.1 hd'.2 _ hmem) (by decide)
      simp only [String.toList_append, List.mem_append, not_or] at hline ⊢
      exact ⟨⟨hline.1.1, hdigit⟩, hline.2⟩
    · exact hold s (List.mem_append_right _ (List.mem_cons_of_mem _ hs))

/-- A script with other digits in the place of a loop count has lines that differ in that count
only. -/
theorem forall₂_alike_ofScript {enough : Nat} {script counter p d d' q : String}
    {before after : List String} (htexts : texts script = before ++ (p ++ d ++ q) :: after)
    (h : LoopHeader.CountBetween counter p d q)
    (hline : Tokens.ofString (p ++ d ++ q) = .ofList (LoopHeader.tokens counter d))
    (hd' : Token.IsDigits d')
    (hcount : min (min (Token.decimal d) greatestCount) enough =
      min (min (Token.decimal d') greatestCount) enough) :
    List.Forall₂ (Alike enough) (ofScript script)
      (ofScript ("\n".intercalate (before ++ (p ++ d' ++ q) :: after))) := by
  rw [ofScript_intercalate (by simp) (newline_notMem_replace htexts hd'), ofScript_eq_ofPieces,
    htexts, List.map_append, List.map_append, ofPieces_append, ofPieces_append]
  exact List.rel_append (forall₂_alike_refl _)
    (.cons (alike_ofChars h hline hd' hcount) (forall₂_alike_refl _))

end Line

namespace Run

/-- The run over sections, whatever they were made of. -/
def ofSections (options : Options) (ss : List Section) : Run :=
  .ofProgress (Trail.performAll options.maxSteps ss (.start options.color))

theorem ofSections_sections (options : Options) (script : String) :
    ofSections options (sections (Line.ofScript script)) = ofScript script options := rfl

theorem ofSections_congr {options : Options} {ss ss' : List Section}
    (h : List.Forall₂ (Section.Alike (max options.maxSteps 1)) ss ss') :
    ofSections options ss = ofSections options ss' :=
  congrArg ofProgress (Trail.performAll_congr Nat.one_pos h)

/-- Loop counts that are not below the ceiling, nor below one, are as good as each other. Every
header has the digits of its count in a place of their own, and other digits there leave the same
run behind if both counts are that large. So do the counts that did not fit in 64 bits, and so does
the lowering of every count to the ceiling, or to one. -/
theorem ofScript_saturated (options : Options) (hmax : options.maxSteps < 2 ^ 64) :
    let enough := max options.maxSteps 1
    (∀ line header, (Line.ofText line).statement = .ok (.header header) →
      ∃ p d q, line = p ++ d ++ q ∧ LoopHeader.CountBetween header.counter p d q ∧
        header.count = min (Token.decimal d) (2 ^ 64 - 1)) ∧
    (∀ script before p d q after header,
      Line.texts script = before ++ (p ++ d ++ q) :: after →
      (Line.ofText (p ++ d ++ q)).statement = .ok (.header header) →
      LoopHeader.CountBetween header.counter p d q →
      ∀ d', Token.IsDigits d' → enough ≤ Token.decimal d → enough ≤ Token.decimal d' →
        ofScript ("\n".intercalate (before ++ (p ++ d' ++ q) :: after)) options =
          ofScript script options) ∧
    (∀ script ss,
      ss.map (Section.recount (min · (2 ^ 64 - 1))) = sections (Line.ofScript script) →
      ofSections options ss = ofScript script options) ∧
    ∀ script,
      ofSections options ((sections (Line.ofScript script)).map (Section.recount (min · enough))) =
        ofScript script options := by
  intro enough
  have henough : enough ≤ greatestCount := by
    have hgreatest : greatestCount = 2 ^ 64 - 1 := rfl
    omega
  refine ⟨fun line header hline ↦ ?_, ?_, fun script ss hss ↦ ?_, fun script ↦ ?_⟩
  · obtain ⟨d, htokens, hcount⟩ := Line.statement_ofChars_eq_header_iff.1 hline
    obtain ⟨p, q, rfl, hplace⟩ := LoopHeader.exists_countBetween htokens
    exact ⟨p, d, q, rfl, hplace, hcount⟩
  · intro script before p d q after header htexts hline hplace d' hd' hN hN'
    obtain ⟨e, htokens, -⟩ := Line.statement_ofChars_eq_header_iff.1 hline
    obtain ⟨-, rfl, -⟩ := hplace.frame htokens
    rw [← ofSections_sections, ← ofSections_sections]
    refine (ofSections_congr (sections_alike ?_)).symm
    refine Line.forall₂_alike_ofScript htexts hplace htokens hd' ?_
    change min (min _ greatestCount) enough = min (min _ greatestCount) enough
    omega
  · rw [← ofSections_sections, ← hss]
    exact (ofSections_congr (Section.forall₂_alike_recount_min henough ss)).symm
  · rw [← ofSections_sections]
    exact ofSections_congr (Section.forall₂_alike_recount_min (Nat.le_refl enough) _)

/-- A count that does not fit in 64 bits, in the place of one that is just large enough, behind a
step that was made before the loop. -/
theorem ofScript_saturated_at_three :
    3 < 2 ^ 64 ∧ 3 ≤ Token.decimal "3" ∧ 3 ≤ Token.decimal "99999999999999999999" ∧
      ofScript ("\n".intercalate (["fd(1)"] ++
          ("for i in range(" ++ "99999999999999999999" ++ "): # go") :: ["  bk(2)", "pu()"]))
          { maxSteps := 3, color := "red" } =
        ofScript "fd(1)\nfor i in range(3): # go\n  bk(2)\npu()"
          { maxSteps := 3, color := "red" } := by
  have htexts : Line.texts "fd(1)\nfor i in range(3): # go\n  bk(2)\npu()" =
      ["fd(1)"] ++ ("for i in range(" ++ "3" ++ "): # go") :: ["  bk(2)", "pu()"] := by
    decide +kernel
  have hline : (Line.ofText ("for i in range(" ++ "3" ++ "): # go")).statement =
      .ok (.header ⟨"i", 3⟩) := Section.header?_eq_some_iff.1 (by decide +kernel)
  have hplace : LoopHeader.CountBetween "i" "for i in range(" "3" "): # go" :=
    ⟨by decide +kernel, by decide +kernel, fun c hc ↦ by cases hc; rfl⟩
  have hN : 3 ≤ Token.decimal "3" := by decide +kernel
  have hN' : 3 ≤ Token.decimal "99999999999999999999" := by decide +kernel
  have h := ofScript_saturated { maxSteps := 3, color := "red" } (by decide)
  exact ⟨by decide, hN, hN', h.2.1 _ _ _ _ _ _ _ htexts hline hplace _ (by decide +kernel) hN hN'⟩

end Run

end TurtleGraphics
