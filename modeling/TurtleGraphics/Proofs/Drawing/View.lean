import TurtleGraphics.Proofs.Binary64.Arithmetic
import TurtleGraphics.Proofs.Drawing.Document

/-!
# The view of a drawing

The lesser and the greater of two floats are those of the numbers they stand for, and what is no
number is passed over. So a side of the box of some steps is the least or the greatest number that
a coordinate has in them, zero included. The sides of the view follow from the box by the same
formulas in floats and in exact numbers, and in exact numbers the view has the margin around
everything that is drawn, and no smaller one has it.

Main statements:

* `Box.isHull_ofSteps`: the box of some steps;
* `Box.exactView_holds_iff`: the points that the view holds with the margin around them;
* `Drawing.render_viewBox`: the view of a document, with what it has to hold.
-/

namespace TurtleGraphics

open Binary64 (value)

/-! ## The lesser and the greater -/

section

variable {a x : Float}

theorem lesser_of_isNaN (ha : a.isNaN = false) (hx : x.isNaN = true) : lesser a x = a := by
  rw [lesser, ha, Bool.or_false, if_neg (by simpa using Binary64.not_lt_of_isNaN_left hx a)]

theorem greater_of_isNaN (ha : a.isNaN = false) (hx : x.isNaN = true) : greater a x = a := by
  rw [greater, ha, Bool.or_false, if_neg (by simpa using Binary64.not_lt_of_isNaN_right hx a)]

theorem isNaN_lesser (ha : a.isNaN = false) (hx : x.isNaN = false) :
    (lesser a x).isNaN = false := by
  rw [lesser]
  split
  · exact hx
  · exact ha

theorem isNaN_greater (ha : a.isNaN = false) (hx : x.isNaN = false) :
    (greater a x).isNaN = false := by
  rw [greater]
  split
  · exact hx
  · exact ha

theorem value_lesser (ha : a.isNaN = false) (hx : x.isNaN = false) :
    value (lesser a x) = min (value x) (value a) := by
  have hlt := Binary64.lt_iff_value_lt hx ha
  rw [lesser, ha, Bool.or_false]
  split
  · rename_i h
    exact (min_eq_left (hlt.1 (of_decide_eq_true h)).le).symm
  · rename_i h
    exact (min_eq_right (not_lt.1 (mt hlt.2 (by simpa using h)))).symm

theorem value_greater (ha : a.isNaN = false) (hx : x.isNaN = false) :
    value (greater a x) = max (value x) (value a) := by
  have hlt := Binary64.lt_iff_value_lt ha hx
  rw [greater, ha, Bool.or_false]
  split
  · rename_i h
    exact (max_eq_left (hlt.1 (of_decide_eq_true h)).le).symm
  · rename_i h
    exact (max_eq_right (not_lt.1 (mt hlt.2 (by simpa using h)))).symm

end

/-- The numbers that a coordinate has: zero, which it has at the origin, and what the floats among
`xs` stand for that are numbers. -/
def reached (xs : List Float) : Set ℚ := insert 0 {q | ∃ x ∈ xs, x.isNaN = false ∧ value x = q}

theorem mem_reached_iff {xs : List Float} {q : ℚ} :
    q ∈ reached xs ↔ q = 0 ∨ ∃ x ∈ xs, x.isNaN = false ∧ value x = q := Iff.rfl

theorem reached_nil : reached [] = {0} := by
  ext q
  rw [mem_reached_iff, Set.mem_singleton_iff, or_iff_left (by simp)]

theorem reached_concat_of_isNaN {x : Float} (hx : x.isNaN = true) (xs : List Float) :
    reached (xs ++ [x]) = reached xs := by
  ext q
  simp only [mem_reached_iff, List.mem_append, List.mem_singleton, or_and_right, exists_or,
    exists_eq_left, hx, Bool.true_eq_false, false_and, or_false]

theorem reached_concat {x : Float} (hx : x.isNaN = false) (xs : List Float) :
    reached (xs ++ [x]) = insert (value x) (reached xs) := by
  ext q
  simp only [mem_reached_iff, Set.mem_insert_iff, List.mem_append, List.mem_singleton,
    or_and_right, exists_or, exists_eq_left, hx, true_and]
  rw [← or_assoc, or_comm, eq_comm]

/-- What a coordinate has does not depend on the order in which it has it, or on how often. -/
theorem reached_congr {xs ys : List Float} (h : ∀ x, x ∈ xs ↔ x ∈ ys) :
    reached xs = reached ys := by
  simp only [reached, h]

theorem isFinite_of_mem_reached {xs : List Float} {a : Float} (ha : a.isNaN = false)
    (hmem : value a ∈ reached xs) (hxs : ∀ x ∈ xs, x.isFinite) : a.isFinite = true := by
  refine Binary64.isFinite_iff.2 ⟨ha, ?_⟩
  obtain hzero | ⟨x, hx, -, hvalue⟩ := hmem
  · rw [hzero, abs_zero]
    exact Binary64.bound_pos
  · rw [← hvalue]
    exact (Binary64.isFinite_iff.1 (hxs x hx)).2

/-- Whether the float is the least number that a coordinate has. -/
structure IsMinimum (xs : List Float) (a : Float) : Prop where
  isNaN_eq_false : a.isNaN = false
  isLeast : IsLeast (reached xs) (value a)

/-- Whether the float is the greatest number that a coordinate has. -/
structure IsMaximum (xs : List Float) (a : Float) : Prop where
  isNaN_eq_false : a.isNaN = false
  isGreatest : IsGreatest (reached xs) (value a)

section

variable {xs ys : List Float} {a b : Float}

theorem isMinimum_zero : IsMinimum [] 0 where
  isNaN_eq_false := rfl
  isLeast := by
    rw [reached_nil, Binary64.value_zero]
    exact isLeast_singleton

theorem isMaximum_zero : IsMaximum [] 0 where
  isNaN_eq_false := rfl
  isGreatest := by
    rw [reached_nil, Binary64.value_zero]
    exact isGreatest_singleton

theorem IsMinimum.lesser (h : IsMinimum xs a) (x : Float) :
    IsMinimum (xs ++ [x]) (lesser a x) := by
  cases hx : x.isNaN with
  | true =>
    rw [lesser_of_isNaN h.isNaN_eq_false hx]
    exact ⟨h.isNaN_eq_false, reached_concat_of_isNaN hx xs ▸ h.isLeast⟩
  | false =>
    refine ⟨isNaN_lesser h.isNaN_eq_false hx, ?_⟩
    rw [reached_concat hx, value_lesser h.isNaN_eq_false hx]
    exact h.isLeast.insert (value x)

theorem IsMaximum.greater (h : IsMaximum xs a) (x : Float) :
    IsMaximum (xs ++ [x]) (greater a x) := by
  cases hx : x.isNaN with
  | true =>
    rw [greater_of_isNaN h.isNaN_eq_false hx]
    exact ⟨h.isNaN_eq_false, reached_concat_of_isNaN hx xs ▸ h.isGreatest⟩
  | false =>
    refine ⟨isNaN_greater h.isNaN_eq_false hx, ?_⟩
    rw [reached_concat hx, value_greater h.isNaN_eq_false hx]
    exact h.isGreatest.insert (value x)

theorem IsMinimum.value_eq (ha : IsMinimum xs a) (hb : IsMinimum ys b)
    (h : ∀ x, x ∈ xs ↔ x ∈ ys) : value a = value b :=
  ha.isLeast.unique (reached_congr h ▸ hb.isLeast)

theorem IsMaximum.value_eq (ha : IsMaximum xs a) (hb : IsMaximum ys b)
    (h : ∀ x, x ∈ xs ↔ x ∈ ys) : value a = value b :=
  ha.isGreatest.unique (reached_congr h ▸ hb.isGreatest)

end

/-! ## Boxes -/

/-- Where the steps are. -/
def places (steps : List Step) : List (Float × Float) :=
  steps.map fun s ↦ (s.cursor.x, s.cursor.y)

theorem mem_places {steps : List Step} {s : Step} (hs : s ∈ steps) :
    (s.cursor.x, s.cursor.y) ∈ places steps := List.mem_map_of_mem hs

namespace Box

/-- Whether the box is the least one that has the origin and the places in it. -/
structure IsHull (b : Box) (ps : List (Float × Float)) : Prop where
  minX : IsMinimum (ps.map Prod.fst) b.minX
  minY : IsMinimum (ps.map Prod.snd) b.minY
  maxX : IsMaximum (ps.map Prod.fst) b.maxX
  maxY : IsMaximum (ps.map Prod.snd) b.maxY

theorem isHull_origin : origin.IsHull [] :=
  ⟨isMinimum_zero, isMinimum_zero, isMaximum_zero, isMaximum_zero⟩

theorem IsHull.add {b : Box} {ps : List (Float × Float)} (h : b.IsHull ps) (c : Cursor) :
    (b.add c).IsHull (ps ++ [(c.x, c.y)]) where
  minX := List.map_append ▸ h.minX.lesser c.x
  minY := List.map_append ▸ h.minY.lesser c.y
  maxX := List.map_append ▸ h.maxX.greater c.x
  maxY := List.map_append ▸ h.maxY.greater c.y

/-- The box of some steps is the least one that has the origin and their places in it. -/
theorem isHull_ofSteps (steps : List Step) : (ofSteps steps).IsHull (places steps) := by
  -- The last step is the one that the box is stretched to last.
  induction steps using List.reverseRecOn with
  | nil => exact isHull_origin
  | append_singleton steps s ih =>
    rw [ofSteps, List.foldl_append, places, List.map_append]
    exact ih.add s.cursor

/-- The box of finite places has finite sides. -/
theorem IsHull.isFinite {b : Box} {ps : List (Float × Float)} (h : b.IsHull ps)
    (hps : ∀ p ∈ ps, p.1.isFinite ∧ p.2.isFinite) :
    b.minX.isFinite ∧ b.minY.isFinite ∧ b.maxX.isFinite ∧ b.maxY.isFinite := by
  have hfst : ∀ x ∈ ps.map Prod.fst, x.isFinite := List.forall_mem_map.2 fun p hp ↦ (hps p hp).1
  have hsnd : ∀ y ∈ ps.map Prod.snd, y.isFinite := List.forall_mem_map.2 fun p hp ↦ (hps p hp).2
  exact ⟨isFinite_of_mem_reached h.minX.isNaN_eq_false h.minX.isLeast.1 hfst,
    isFinite_of_mem_reached h.minY.isNaN_eq_false h.minY.isLeast.1 hsnd,
    isFinite_of_mem_reached h.maxX.isNaN_eq_false h.maxX.isGreatest.1 hfst,
    isFinite_of_mem_reached h.maxY.isNaN_eq_false h.maxY.isGreatest.1 hsnd⟩

/-- The numbers that the sides stand for. -/
def sides (b : Box) : ℚ × ℚ × ℚ × ℚ :=
  (value b.minX, value b.minY, value b.maxX, value b.maxY)

/-- The box depends on what the places are, and not on their order or how often they are reached. -/
theorem IsHull.sides_eq {b b' : Box} {ps ps' : List (Float × Float)} (h : b.IsHull ps)
    (h' : b'.IsHull ps') (hps : ∀ p, p ∈ ps ↔ p ∈ ps') : b.sides = b'.sides := by
  have hfst : ∀ x, x ∈ ps.map Prod.fst ↔ x ∈ ps'.map Prod.fst := by
    simp only [List.mem_map, hps, implies_true]
  have hsnd : ∀ y, y ∈ ps.map Prod.snd ↔ y ∈ ps'.map Prod.snd := by
    simp only [List.mem_map, hps, implies_true]
  rw [sides, sides, h.minX.value_eq h'.minX hfst, h.minY.value_eq h'.minY hsnd,
    h.maxX.value_eq h'.maxX hfst, h.maxY.value_eq h'.maxY hsnd]

end Box

/-! ## Views -/

namespace View

/-- Whether a point of the document is in the view, and not nearer than `d` to an edge of it. -/
structure Holds (v : View ℚ) (d x y : ℚ) : Prop where
  left : v.left + d ≤ x
  right : x + d ≤ v.left + v.width
  top : v.top + d ≤ y
  bottom : y + d ≤ v.top + v.height

/-- Whether the view holds the place of a cursor, where the document has it. -/
def Shows (v : View ℚ) (d : ℚ) (c : Cursor) : Prop := v.Holds d (value c.x) (value (-c.y))

/-- Whether all of one view is in another. -/
structure Covers (w v : View ℚ) : Prop where
  left : w.left ≤ v.left
  right : v.left + v.width ≤ w.left + w.width
  top : w.top ≤ v.top
  bottom : v.top + v.height ≤ w.top + w.height

end View

theorem Drawing.value_margin : value margin = 20 := Binary64.value_ofNat (n := 20) (by decide)

namespace Box

/-- The view before anything is rounded. -/
def exactView (b : Box) : View ℚ :=
  .ofSides (value Drawing.margin) (value b.minX) (value b.minY) (value b.maxX) (value b.maxY)

variable {b : Box}

/-- The view holds what is in the box, turned upside down, with the margin around it. -/
theorem exactView_holds_iff {x y : ℚ} : b.exactView.Holds 20 x y ↔
    (value b.minX ≤ x ∧ x ≤ value b.maxX) ∧ value b.minY ≤ -y ∧ -y ≤ value b.maxY := by
  constructor
  · rintro ⟨hleft, hright, htop, hbottom⟩
    simp only [exactView, View.ofSides, Drawing.value_margin] at hleft hright htop hbottom
    refine ⟨⟨?_, ?_⟩, ?_, ?_⟩
    all_goals linarith
  · rintro ⟨⟨hminX, hmaxX⟩, hminY, hmaxY⟩
    constructor
    all_goals
      simp only [exactView, View.ofSides, Drawing.value_margin]
      linarith

section

variable {steps : List Step} {s : Step} {w : View ℚ}

theorem IsHull.exactView_origin (h : b.IsHull (places steps)) : b.exactView.Holds 20 0 0 := by
  rw [exactView_holds_iff, neg_zero]
  exact ⟨⟨h.minX.isLeast.2 (.inl rfl), h.maxX.isGreatest.2 (.inl rfl)⟩,
    h.minY.isLeast.2 (.inl rfl), h.maxY.isGreatest.2 (.inl rfl)⟩

theorem IsHull.exactView_shows (h : b.IsHull (places steps)) (hs : s ∈ steps)
    (hx : s.cursor.x.isNaN = false) (hy : s.cursor.y.isNaN = false) :
    b.exactView.Shows 20 s.cursor := by
  have hplace := mem_places hs
  have hx' : value s.cursor.x ∈ reached ((places steps).map Prod.fst) :=
    .inr ⟨_, List.mem_map_of_mem hplace, hx, rfl⟩
  have hy' : value s.cursor.y ∈ reached ((places steps).map Prod.snd) :=
    .inr ⟨_, List.mem_map_of_mem hplace, hy, rfl⟩
  rw [View.Shows, exactView_holds_iff, Binary64.value_neg, neg_neg]
  exact ⟨⟨h.minX.isLeast.2 hx', h.maxX.isGreatest.2 hx'⟩,
    h.minY.isLeast.2 hy', h.maxY.isGreatest.2 hy'⟩

/-- Every view with the margin around the origin and the positions has all of the view in it, since
each side of the box is at one of them. -/
theorem IsHull.covers_exactView (h : b.IsHull (places steps)) (horigin : w.Holds 20 0 0)
    (hw : ∀ s ∈ steps, w.Shows 20 s.cursor) : w.Covers b.exactView := by
  have hx : ∀ q ∈ reached ((places steps).map Prod.fst),
      w.left + 20 ≤ q ∧ q + 20 ≤ w.left + w.width := by
    rintro q (rfl | ⟨x, hmem, -, rfl⟩)
    · exact ⟨horigin.left, horigin.right⟩
    · obtain ⟨p, hp, rfl⟩ := List.mem_map.1 hmem
      obtain ⟨s, hs, rfl⟩ := List.mem_map.1 hp
      exact ⟨(hw s hs).left, (hw s hs).right⟩
  have hy : ∀ q ∈ reached ((places steps).map Prod.snd),
      w.top + 20 ≤ -q ∧ -q + 20 ≤ w.top + w.height := by
    rintro q (rfl | ⟨y, hmem, -, rfl⟩)
    · rw [neg_zero]
      exact ⟨horigin.top, horigin.bottom⟩
    · obtain ⟨p, hp, rfl⟩ := List.mem_map.1 hmem
      obtain ⟨s, hs, rfl⟩ := List.mem_map.1 hp
      rw [← Binary64.value_neg]
      exact ⟨(hw s hs).top, (hw s hs).bottom⟩
  have hleft := (hx _ h.minX.isLeast.1).1
  have hright := (hx _ h.maxX.isGreatest.1).2
  have htop := (hy _ h.maxY.isGreatest.1).1
  have hbottom := (hy _ h.minY.isLeast.1).2
  constructor
  all_goals
    simp only [exactView, View.ofSides, Drawing.value_margin]
    linarith

end

end Box

namespace Drawing

theorem mem_of_mem_drawn {cursors : List Cursor} {p : Cursor × Cursor} (hp : p ∈ drawn cursors) :
    p.1 ∈ cursors ∧ p.2 ∈ cursors := by
  obtain ⟨hfst, hsnd⟩ := List.of_mem_zip (List.mem_of_mem_filter hp)
  exact ⟨hfst, List.mem_of_mem_tail hsnd⟩

/-- The box of a drawing is the least one that has the origin and the positions of the steps in it:
its sides are numbers, the least and the greatest that the coordinates have, and they are the same
in whatever order and how often the positions are reached. The document gives the box with a margin
as its view, next to the lines and the dot. If the positions are finite and nothing is rounded, then
the view holds the origin, both ends of each line and the dot with a distance of 20 to its edges,
and no view that does so for the origin and the positions is smaller. -/
theorem render_viewBox (steps : List Step) :
    ((Box.ofSteps steps).IsHull (places steps) ∧
      ∀ steps', (∀ p, p ∈ places steps' ↔ p ∈ places steps) →
        (Box.ofSteps steps').sides = (Box.ofSteps steps).sides) ∧
    Xml.ofString? (render steps) = some (.element "svg"
      [("xmlns", "http://www.w3.org/2000/svg"), ("viewBox", (Box.ofSteps steps).view.text)]
      ((drawn (steps.map Step.cursor)).map (fun p ↦ lineElement p.1 p.2) ++
        (steps.map Step.cursor).getLast?.toList.map dotElement)) ∧
    ((∀ s ∈ steps, s.cursor.x.isFinite ∧ s.cursor.y.isFinite) →
      ((Box.ofSteps steps).minX.isFinite ∧ (Box.ofSteps steps).minY.isFinite ∧
        (Box.ofSteps steps).maxX.isFinite ∧ (Box.ofSteps steps).maxY.isFinite) ∧
      (Box.ofSteps steps).exactView.Holds 20 0 0 ∧
      (∀ s ∈ steps, (Box.ofSteps steps).exactView.Shows 20 s.cursor) ∧
      (∀ p ∈ drawn (steps.map Step.cursor), (Box.ofSteps steps).exactView.Shows 20 p.1 ∧
        (Box.ofSteps steps).exactView.Shows 20 p.2) ∧
      (∀ last ∈ (steps.map Step.cursor).getLast?, (Box.ofSteps steps).exactView.Shows 20 last) ∧
      ∀ w : View ℚ, w.Holds 20 0 0 → (∀ s ∈ steps, w.Shows 20 s.cursor) →
        w.Covers (Box.ofSteps steps).exactView) := by
  have hhull := Box.isHull_ofSteps steps
  refine ⟨⟨hhull, fun steps' ↦ (Box.isHull_ofSteps steps').sides_eq hhull⟩,
    ofString?_render steps, fun hfinite ↦ ?_⟩
  have hshows : ∀ c ∈ steps.map Step.cursor, (Box.ofSteps steps).exactView.Shows 20 c := by
    refine List.forall_mem_map.2 fun s hs ↦ ?_
    obtain ⟨hx, hy⟩ := hfinite s hs
    exact hhull.exactView_shows hs (Binary64.isFinite_iff.1 hx).1 (Binary64.isFinite_iff.1 hy).1
  refine ⟨hhull.isFinite ?_, hhull.exactView_origin, fun s hs ↦ hshows _ (List.mem_map_of_mem hs),
    fun p hp ↦ ?_, fun last hlast ↦ hshows last (List.mem_of_getLast? hlast),
    fun w ↦ hhull.covers_exactView⟩
  · exact List.forall_mem_map.2 hfinite
  · obtain ⟨hfst, hsnd⟩ := mem_of_mem_drawn hp
    exact ⟨hshows _ hfst, hshows _ hsnd⟩

/-- The view of a drawing with a line to the right and down. -/
theorem render_viewBox_of_line :
    let start := Cursor.fresh "red"
    let stop := { start with x := 30, y := -10 }
    let b := Box.ofSteps [⟨0, start⟩, ⟨1, stop⟩]
    b.view.text = "-20.000 -20.000 70.000 50.000" ∧ drawn [start, stop] = [(start, stop)] ∧
      b.exactView.Shows 20 start ∧ b.exactView.Shows 20 stop := by
  intro start stop b
  have hdrawn : drawn [start, stop] = [(start, stop)] :=
    List.filter_cons_of_pos (by decide +kernel)
  obtain ⟨-, -, -, hends, -⟩ :=
    (render_viewBox [⟨0, start⟩, ⟨1, stop⟩]).2.2 (by decide +kernel)
  exact ⟨by decide +kernel, hdrawn, hends (start, stop) (hdrawn ▸ List.mem_singleton_self _)⟩

end Drawing

end TurtleGraphics
