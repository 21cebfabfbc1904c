import TurtleGraphics.Proofs.Cursor.Range
import TurtleGraphics.Proofs.Decimal.Digits
import TurtleGraphics.Proofs.Drawing.Document

/-!
# The numbers in a drawing

What is written for a finite float has digits, a point and a minus in it, and no letters. So the
numbers in a drawing are numbers as long as all coordinates are in a quarter of the range of the
floats: the width and the height of the view are at most three times as large, rounding included,
and the margins are small. Main statement: `Drawing.exists_document_hasNumber`.
-/

namespace TurtleGraphics

open Binary64 (IsWithin value bound)

/-! ## Boxes -/

/-- Whether all sides of the view are finite. -/
structure View.IsFinite (v : View Float) : Prop where
  left : v.left.isFinite = true
  top : v.top.isFinite = true
  width : v.width.isFinite = true
  height : v.height.isFinite = true

namespace Box

/-- Whether the sides are finite and not further from zero than `p`. -/
structure Within (b : Box) (p : ℚ) : Prop where
  minX : IsWithin p b.minX
  minY : IsWithin p b.minY
  maxX : IsWithin p b.maxX
  maxY : IsWithin p b.maxY

variable {p : ℚ} {b : Box}

theorem isWithin_lesser {x y : Float} (hx : IsWithin p x) (hy : IsWithin p y) :
    IsWithin p (lesser x y) := by
  rw [lesser]
  split
  · exact hy
  · exact hx

theorem isWithin_greater {x y : Float} (hx : IsWithin p x) (hy : IsWithin p y) :
    IsWithin p (greater x y) := by
  rw [greater]
  split
  · exact hy
  · exact hx

theorem Within.add {turned : ℚ} {c : Cursor} (h : b.Within p) (hc : c.Within turned p) :
    (b.add c).Within p where
  minX := isWithin_lesser h.minX hc.x
  minY := isWithin_lesser h.minY hc.y
  maxX := isWithin_greater h.maxX hc.x
  maxY := isWithin_greater h.maxY hc.y

/-- A box is not larger than what it is stretched to reach. -/
theorem within_ofSteps {turned : ℚ} {steps : List Step} (hp : 0 ≤ p)
    (h : ∀ s ∈ steps, s.cursor.Within turned p) : (ofSteps steps).Within p := by
  have hzero : IsWithin p 0 := .zero hp
  exact List.foldlRecOn (motive := (Within · p)) steps _ ⟨hzero, hzero, hzero, hzero⟩
    fun _ hb s hs ↦ hb.add (h s hs)

/-- The sides of a view are not much further out than those of its box. -/
theorem Within.isFinite_view (h : b.Within p) (hp : 4 * p ≤ bound) : b.view.IsFinite := by
  have hbound := Binary64.two_pow_lt_bound
  have hmargin : IsWithin (20 : ℕ) Drawing.margin := .ofNat (by decide)
  have hmargins : IsWithin (40 : ℕ) (2 * Drawing.margin) := by
    have htwice : 2 * Drawing.margin = 40 := by decide +kernel
    rw [htwice]
    exact .ofNat (by decide)
  have hside {x y : Float} (hx : IsWithin p x) (hy : IsWithin p y) :
      (x - y + 2 * Drawing.margin).isFinite = true :=
    ((hx.sub hy (by linarith)).add hmargins (by push_cast; linarith)).isFinite
  exact
    { left := (h.minX.sub hmargin (by push_cast; linarith)).isFinite
      top := (h.maxY.neg.sub hmargin (by push_cast; linarith)).isFinite
      width := hside h.maxX h.minX
      height := hside h.maxY h.minY }

end Box

namespace Drawing

/-! ## Texts -/

/-- Whether `c` may stand in a list of numbers with a fixed number of places. -/
def isNumeric (c : Char) : Bool := c.isDigit || c = '.' || c = '-' || c = ' '

theorem all_isNumeric_coordinate {x : Float} (h : x.isFinite = true) :
    (coordinate x).toList.all isNumeric := by
  obtain ⟨negative, m, q, hx⟩ := Decimal.exists_finite_of_isFinite h
  rw [coordinate, Decimal.fixed, String.toList_ofList, hx, List.all_append, Bool.and_eq_true]
  constructor
  · cases negative with
    | false => rfl
    | true => rfl
  · rw [List.all_eq_true]
    intro c hc
    obtain hc | rfl := isDigit_or_of_mem_pointed hc
    · simp [isNumeric, hc]
    · rfl

theorem all_isNumeric_text {v : View Float} (h : v.IsFinite) :
    v.text.toList.all isNumeric := by
  simp only [View.text, String.toList_append, List.all_append, Bool.and_eq_true]
  exact ⟨⟨⟨⟨⟨⟨all_isNumeric_coordinate h.left, rfl⟩, all_isNumeric_coordinate h.top⟩, rfl⟩,
    all_isNumeric_coordinate h.width⟩, rfl⟩, all_isNumeric_coordinate h.height⟩

end Drawing

/-! ## Documents -/

namespace Xml

mutual

/-- All attributes in the node. -/
def attributes : Xml → List (String × String)
  | text _ => []
  | element _ attrs children => attrs ++ attributesOf children

/-- All attributes in the nodes. -/
def attributesOf : List Xml → List (String × String)
  | [] => []
  | node :: nodes => node.attributes ++ attributesOf nodes

end

theorem attributesOf_eq_flatMap (nodes : List Xml) :
    attributesOf nodes = nodes.flatMap attributes := by
  induction nodes with
  | nil => rfl
  | cons node nodes ih => rw [attributesOf, ih, List.flatMap_cons]

end Xml

namespace Drawing

/-- The names of the attributes that have numbers for values. -/
def numericNames : List String := ["viewBox", "x1", "y1", "x2", "y2", "cx", "cy"]

/-- Whether the value of the attribute is a number, or a list of them, if its name says so. -/
def HasNumber (a : String × String) : Prop := a.1 ∈ numericNames → a.2.toList.all isNumeric

theorem hasNumber_coordinate {name : String} {x : Float} (h : x.isFinite = true) :
    HasNumber (name, coordinate x) := fun _ ↦ all_isNumeric_coordinate h

theorem hasNumber_of_notMem {name : String} (h : name ∉ numericNames) (value : String) :
    HasNumber (name, value) := fun hname ↦ absurd hname h

section

variable {turned p : ℚ}

theorem hasNumber_lineElement {start stop : Cursor} (hstart : start.Within turned p)
    (hstop : stop.Within turned p) : ∀ a ∈ (lineElement start stop).attributes, HasNumber a := by
  simp only [lineElement, Xml.attributes, Xml.attributesOf, List.append_nil, List.forall_mem_cons]
  exact ⟨hasNumber_coordinate hstart.x.isFinite, hasNumber_coordinate hstart.y.neg.isFinite,
    hasNumber_coordinate hstop.x.isFinite, hasNumber_coordinate hstop.y.neg.isFinite,
    hasNumber_of_notMem (by decide) _, hasNumber_of_notMem (by decide) _,
    hasNumber_of_notMem (by decide) _, List.forall_mem_nil _⟩

theorem hasNumber_dotElement {last : Cursor} (h : last.Within turned p) :
    ∀ a ∈ (dotElement last).attributes, HasNumber a := by
  simp only [dotElement, Xml.attributes, Xml.attributesOf, List.append_nil, List.forall_mem_cons]
  exact ⟨hasNumber_coordinate h.x.isFinite, hasNumber_coordinate h.y.neg.isFinite,
    hasNumber_of_notMem (by decide) _, hasNumber_of_notMem (by decide) _, List.forall_mem_nil _⟩

/-- The numbers in a drawing are numbers. -/
theorem exists_document_hasNumber {steps : List Step} (hp : 0 ≤ p) (hp' : 4 * p ≤ bound)
    (h : ∀ s ∈ steps, s.cursor.Within turned p) :
    ∃ document, Xml.ofString? (render steps) = some document ∧
      ∀ a ∈ document.attributes, HasNumber a := by
  have hcursors : ∀ c ∈ steps.map Step.cursor, c.Within turned p := by
    intro c hc
    obtain ⟨s, hs, rfl⟩ := List.mem_map.1 hc
    exact h s hs
  refine ⟨_, ofString?_render steps, ?_⟩
  rw [Xml.attributes, Xml.attributesOf_eq_flatMap, List.flatMap_append, List.flatMap_map,
    List.flatMap_map, List.forall_mem_append, List.forall_mem_append]
  refine ⟨?_, fun a ha ↦ ?_, fun a ha ↦ ?_⟩
  · simp only [List.forall_mem_cons]
    exact ⟨hasNumber_of_notMem (by decide) _,
      fun _ ↦ all_isNumeric_text ((Box.within_ofSteps hp h).isFinite_view hp'),
      List.forall_mem_nil _⟩
  · obtain ⟨q, hq, ha⟩ := List.mem_flatMap.1 ha
    have hmem := List.of_mem_zip (List.mem_filter.1 hq).1
    exact hasNumber_lineElement (hcursors _ hmem.1)
      (hcursors _ (List.mem_of_mem_tail hmem.2)) a ha
  · obtain ⟨last, hlast, ha⟩ := List.mem_flatMap.1 ha
    exact hasNumber_dotElement
      (hcursors _ (List.mem_of_getLast? (Option.mem_toList.1 hlast))) a ha

end

end Drawing

end TurtleGraphics
