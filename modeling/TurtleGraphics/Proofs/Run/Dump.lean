import Mathlib.Data.List.Basic
import TurtleGraphics.Proofs.Json.Document
import TurtleGraphics.Run.Dump

/-!
# What a dump says

The dump of a run is one JSON document: an object of the steps, the fault and the two sums, in this
order. Nothing of the run is lost in it but what a fault is besides its message, if no float is
infinite or no number, and no two of them have one text. Main statement: `Run.dump_document`.
-/

namespace TurtleGraphics

open Json

/-- A float as a document: what is not finite is `null`. -/
def Json.Document.ofFloat (x : Float) : Document :=
  if x.isFinite then .number (Decimal.Layout.data.text x) else .null

/-- What a step is as a document. -/
def Step.document (s : Step) : Document :=
  .object
    [("id", .number (toString s.id)),
      ("x", .ofFloat s.cursor.x),
      ("y", .ofFloat s.cursor.y),
      ("heading", .ofFloat s.cursor.heading),
      ("penDown", .bool s.cursor.penDown),
      ("color", .string s.cursor.color)]

/-- The floats that a step has in it. -/
def Step.floats (s : Step) : List Float := [s.cursor.x, s.cursor.y, s.cursor.heading]

namespace Run

/-- What a run is as a document. -/
def document (r : Run) : Document :=
  .object
    [("steps", .array (r.steps.map Step.document)),
      ("error", match r.fault with | none => .null | some fault => .string fault.message),
      ("pathLength", .ofFloat r.pathLength),
      ("totalTurns", .ofFloat r.totalTurns)]

/-- The floats that a run has in it. -/
def floats (r : Run) : List Float :=
  r.pathLength :: r.totalTurns :: r.steps.flatMap Step.floats

variable {r r' : Run}

theorem document_toJson (r : Run) : r.toJson.document = r.document := by
  have hstep (s : Step) : s.toJson.document = s.document := document_object _
  have hsteps : (r.steps.map Step.toJson).map Json.document = r.steps.map Step.document := by
    rw [List.map_map]
    exact List.map_congr_left fun s _ ↦ hstep s
  rw [toJson, document_object, document, ← hsteps, ← document_array]
  cases r.fault with
  | none => rfl
  | some fault => rfl

theorem within_toJson (r : Run) : Within greatestDepth r.toJson := by
  have hstep (depth : Nat) (s : Step) : Within (depth + 1) s.toJson := by
    refine .object fun m hm ↦ ?_
    simp only [List.mem_cons, List.not_mem_nil, or_false] at hm
    obtain rfl | rfl | rfl | rfl | rfl | rfl := hm
    · exact .number _ _
    · exact .number _ _
    · exact .number _ _
    · exact .number _ _
    · exact .bool _ _
    · exact .string _ _
  refine .object fun m hm ↦ ?_
  simp only [List.mem_cons, List.not_mem_nil, or_false] at hm
  obtain rfl | rfl | rfl | rfl := hm
  · refine .array fun v hv ↦ ?_
    obtain ⟨s, -, rfl⟩ := List.mem_map.1 hv
    exact hstep _ s
  · cases r.fault with
    | none => exact .null _
    | some fault => exact .string _ _
  · exact .number _ _
  · exact .number _ _

theorem ofString_dump (r : Run) : Document.ofString r.dump = .ok r.document := by
  rw [dump, Document.ofString_text r.within_toJson, document_toJson]

/-! ## What the document tells -/

theorem eq_of_map_eq {α β : Type} {f : α → β} {as bs : List α}
    (h : ∀ a ∈ as, ∀ b ∈ bs, f a = f b → a = b) (heq : as.map f = bs.map f) : as = bs := by
  induction as generalizing bs with
  | nil => exact (List.map_eq_nil_iff.1 heq.symm).symm
  | cons a as ih =>
    obtain ⟨b, bs, rfl, hb, hbs⟩ := List.map_eq_cons_iff.1 heq.symm
    rw [h a List.mem_cons_self b List.mem_cons_self hb.symm,
      ih (fun a ha b hb ↦ h a (List.mem_cons_of_mem _ ha) b (List.mem_cons_of_mem _ hb)) hbs.symm]

/-- Whether the floats are finite, and each has a text of its own. -/
structure Told (xs : List Float) : Prop where
  finite : ∀ x ∈ xs, x.isFinite
  distinct : ∀ x ∈ xs, ∀ y ∈ xs, Decimal.Layout.data.text x = Decimal.Layout.data.text y → x = y

theorem Told.eq_of_ofFloat {xs : List Float} (h : Told xs) {x y : Float} (hx : x ∈ xs)
    (hy : y ∈ xs) (heq : Document.ofFloat x = .ofFloat y) : x = y := by
  rw [Document.ofFloat, Document.ofFloat, if_pos (h.finite x hx), if_pos (h.finite y hy),
    Document.number.injEq] at heq
  exact h.distinct x hx y hy heq

/-- A number is known by its digits. -/
theorem eq_of_toString_eq {m n : Nat} (h : toString m = toString n) : m = n := by
  have hdigits : Nat.toDigits 10 m = Nat.toDigits 10 n := by
    rw [← Nat.toList_repr, ← Nat.toList_repr]
    exact congrArg String.toList h
  rw [← Nat.ofDigitChars_ten_toDigits (n := m), hdigits, Nat.ofDigitChars_ten_toDigits]

/-- Steps with one document are the same. -/
theorem Told.step_eq {xs : List Float} (h : Told xs) {s t : Step} (hs : s.floats ⊆ xs)
    (ht : t.floats ⊆ xs) (heq : s.document = t.document) : s = t := by
  obtain ⟨id, x, y, heading, penDown, color⟩ := s
  obtain ⟨id', x', y', heading', penDown', color'⟩ := t
  simp only [Step.document, Document.object.injEq, List.cons.injEq, Prod.mk.injEq, true_and,
    and_true, Document.number.injEq, Document.bool.injEq, Document.string.injEq] at heq
  obtain ⟨hid, hx, hy, hheading, rfl, rfl⟩ := heq
  simp only [Step.floats, List.cons_subset, List.nil_subset, and_true] at hs ht
  obtain rfl := eq_of_toString_eq hid
  obtain rfl := h.eq_of_ofFloat hs.1 ht.1 hx
  obtain rfl := h.eq_of_ofFloat hs.2.1 ht.2.1 hy
  obtain rfl := h.eq_of_ofFloat hs.2.2 ht.2.2 hheading
  rfl

/-- Runs with one document have the same steps and sums, and faults of the same wording. -/
theorem eq_of_document_eq (h : Told (r.floats ++ r'.floats)) (heq : r.document = r'.document) :
    r.steps = r'.steps ∧ r.fault.map Fault.message = r'.fault.map Fault.message ∧
      r.pathLength = r'.pathLength ∧ r.totalTurns = r'.totalTurns := by
  simp only [document, Document.object.injEq, List.cons.injEq, Prod.mk.injEq, true_and, and_true,
    Document.array.injEq] at heq
  obtain ⟨hsteps, hfault, hpath, hturns⟩ := heq
  have hleft {x : Float} (hx : x ∈ r.floats) : x ∈ r.floats ++ r'.floats :=
    List.mem_append_left _ hx
  have hright {x : Float} (hx : x ∈ r'.floats) : x ∈ r.floats ++ r'.floats :=
    List.mem_append_right _ hx
  have hmem {r : Run} {s : Step} (hs : s ∈ r.steps) : s.floats ⊆ r.floats := fun x hx ↦
    List.mem_cons_of_mem _ (List.mem_cons_of_mem _ (List.mem_flatMap.2 ⟨s, hs, hx⟩))
  refine ⟨eq_of_map_eq (fun s hs t ht ↦ ?_) hsteps, ?_, ?_, ?_⟩
  · exact h.step_eq (fun x hx ↦ hleft (hmem hs hx)) (fun x hx ↦ hright (hmem ht hx))
  · cases hr : r.fault with
    | none =>
      cases hr' : r'.fault with
      | none => rfl
      | some fault => simp [hr, hr'] at hfault
    | some fault =>
      cases hr' : r'.fault with
      | none => simp [hr, hr'] at hfault
      | some fault' =>
        simp only [hr, hr', Document.string.injEq] at hfault
        exact congrArg some hfault
  · exact h.eq_of_ofFloat (hleft List.mem_cons_self) (hright List.mem_cons_self) hpath
  · exact h.eq_of_ofFloat (hleft (List.mem_cons_of_mem _ List.mem_cons_self))
      (hright (List.mem_cons_of_mem _ List.mem_cons_self)) hturns

/-- What the dump of a run says. It is one document, which has all of the run in it but what its
fault is besides a message, and has the floats as they are written. So two runs that are dumped as
one text have the same steps, the same sums and faults of the same wording, if all their floats are
finite and no two of them are written alike. -/
theorem dump_document :
    (∀ r : Run, Document.ofString r.dump = .ok r.document) ∧
    ∀ r r' : Run, Told (r.floats ++ r'.floats) → r.dump = r'.dump →
      r.steps = r'.steps ∧ r.fault.map Fault.message = r'.fault.map Fault.message ∧
        r.pathLength = r'.pathLength ∧ r.totalTurns = r'.totalTurns := by
  refine ⟨ofString_dump, fun r r' h heq ↦ eq_of_document_eq h ?_⟩
  have hok := ofString_dump r
  rw [heq, ofString_dump r'] at hok
  exact (Except.ok.inj hok).symm

/-- A run that met a fault in its first line. -/
def stuck (keyword detail : String) : Run :=
  ⟨[⟨0, .fresh defaultColor⟩], some (.argument 1 keyword detail), 0, 0⟩

/-- Two faults of one wording are dumped as one text. -/
theorem dump_document_stuck :
    (stuck "fd" "1 doesn't like its input: 2").dump =
        (stuck "fd doesn't like its input: 1" "2").dump ∧
      (stuck "fd" "1 doesn't like its input: 2").fault.map Fault.message =
        (stuck "fd doesn't like its input: 1" "2").fault.map Fault.message := by
  have hdump : (stuck "fd" "1 doesn't like its input: 2").dump =
      (stuck "fd doesn't like its input: 1" "2").dump := by decide +kernel
  have htold : Told ((stuck "fd" "1 doesn't like its input: 2").floats ++
      (stuck "fd doesn't like its input: 1" "2").floats) := ⟨by decide, by decide +kernel⟩
  exact ⟨hdump, (dump_document.2 _ _ htold hdump).2.1⟩

end Run

end TurtleGraphics
