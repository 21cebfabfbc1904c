import TurtleGraphics.Proofs.Decimal.Fixed
import TurtleGraphics.Proofs.Drawing.View
import TurtleGraphics.Proofs.Run.Range

/-!
# How exact a drawing is

The coordinates in a document are decimals with three places, so each is off by half a thousandth at
most from where the turtle was. The sides of the view are rounded as floats before they are written,
by less than a thousandth each as long as no coordinate is too large. So what is read from a
document is in the view that is read from it, and hardly any of the margin is lost. Main statements:

* `View.exists_read?_text`: what is read from a view as a document gives it;
* `Box.Within.view_isNear`: how far the view is from the one before anything is rounded;
* `Drawing.render_accurate`: where everything in a document is, as it is read;
* `Drawing.render_ofScript_accurate`: the same for the run of a script, in terms of its distances.
-/

namespace TurtleGraphics

open Binary64 (value IsWithin)

/-! ## Views -/

/-- A coordinate is written up to half a thousandth. -/
theorem Drawing.exists_read?_coordinate {x : Float} (h : x.isFinite = true) :
    ∃ q, Decimal.read? (coordinate x).toList = some q ∧ |q - value x| ≤ 1 / 2000 := by
  obtain ⟨n, hnearest, hread⟩ := Decimal.exists_read?_fixed 3 h
  refine ⟨_, hread, (Decimal.abs_sub_le_of_isNearestEven hnearest).trans ?_⟩
  norm_num

namespace View

/-- The view that is given by four decimals with spaces between them. -/
def read? (s : String) : Option (View ℚ) :=
  match (s.toList.splitOn ' ').map Decimal.read? with
  | [some left, some top, some width, some height] => some { left, top, width, height }
  | _ => none

/-- Whether each number of one view is off by `d` at most from that of the other. -/
structure IsNear (d : ℚ) (w v : View ℚ) : Prop where
  left : |w.left - v.left| ≤ d
  top : |w.top - v.top| ≤ d
  width : |w.width - v.width| ≤ d
  height : |w.height - v.height| ≤ d

theorem IsNear.trans {d d' : ℚ} {u v w : View ℚ} (h : IsNear d u v) (h' : IsNear d' v w) :
    IsNear (d + d') u w where
  left := (abs_sub_le _ _ _).trans (add_le_add h.left h'.left)
  top := (abs_sub_le _ _ _).trans (add_le_add h.top h'.top)
  width := (abs_sub_le _ _ _).trans (add_le_add h.width h'.width)
  height := (abs_sub_le _ _ _).trans (add_le_add h.height h'.height)

theorem Holds.mono {v : View ℚ} {m m' x y : ℚ} (h : v.Holds m x y) (hle : m' ≤ m) :
    v.Holds m' x y := by
  obtain ⟨hleft, hright, htop, hbottom⟩ := h
  constructor
  all_goals linarith

/-- What is near to a place in a view is in every view that is near to it, a little closer to the
edge. -/
theorem Holds.of_isNear {v w : View ℚ} {m d e x y x' y' : ℚ} (h : v.Holds m x y) (hw : IsNear d w v)
    (hx : |x' - x| ≤ e) (hy : |y' - y| ≤ e) : w.Holds (m - (2 * d + e)) x' y' := by
  obtain ⟨hleft, hright, htop, hbottom⟩ := h
  obtain ⟨hleft', htop', hwidth', hheight'⟩ := hw
  rw [abs_le] at hx hy hleft' htop' hwidth' hheight'
  constructor
  all_goals linarith

/-- The numbers that the sides of the view stand for. -/
def values (v : View Float) : View ℚ where
  left := value v.left
  top := value v.top
  width := value v.width
  height := value v.height

theorem splitOn_text (v : View Float) : v.text.toList.splitOn ' ' =
    [v.left, v.top, v.width, v.height].map fun x ↦ (Drawing.coordinate x).toList := by
  have hspace (x : Float) : ' ' ∉ (Drawing.coordinate x).toList := fun hmem ↦
    absurd (List.all_eq_true.1 (Drawing.all_isNumeral_fixed 3 x) _ hmem) (by decide)
  have htext : v.text.toList = [' '].intercalate
      ([v.left, v.top, v.width, v.height].map fun x ↦ (Drawing.coordinate x).toList) := by
    simp [text, List.intercalate]
  rw [htext]
  exact List.splitOn_intercalate _ (by simp [hspace]) (by simp)

/-- The numbers of a view are written up to half a thousandth. -/
theorem exists_read?_text {v : View Float} (h : v.IsFinite) :
    ∃ w, read? v.text = some w ∧ IsNear (1 / 2000) w v.values := by
  obtain ⟨left, hleft, hleft'⟩ := Drawing.exists_read?_coordinate h.left
  obtain ⟨top, htop, htop'⟩ := Drawing.exists_read?_coordinate h.top
  obtain ⟨width, hwidth, hwidth'⟩ := Drawing.exists_read?_coordinate h.width
  obtain ⟨height, hheight, hheight'⟩ := Drawing.exists_read?_coordinate h.height
  refine ⟨⟨left, top, width, height⟩, ?_, ⟨hleft', htop', hwidth', hheight'⟩⟩
  rw [read?, splitOn_text]
  simp only [List.map_cons, List.map_nil, hleft, htop, hwidth, hheight]

end View

namespace Box

/-- A coordinate with the margin before it is rounded once. -/
theorem abs_value_sub_margin_sub_le {x : Float} (hx : IsWithin (2 ^ 40) x) :
    |value (x - Drawing.margin) - (value x - 20)| ≤ 1 / 2 ^ 11 := by
  have hmargin : Drawing.margin.isFinite = true := by decide +kernel
  have hround := Binary64.isRounding_sub hx.isFinite hmargin
  rw [Drawing.value_margin] at hround
  have htwenty : |(20 : ℚ)| = 20 := abs_of_pos (by norm_num)
  exact hround.abs_value_sub_le (by decide) (by linarith [abs_sub (value x) 20, hx.abs_value_le])

/-- A distance with the margin at both ends is rounded twice. -/
theorem abs_value_add_margins_sub_le {x y : Float} (hx : IsWithin (2 ^ 40) x)
    (hy : IsWithin (2 ^ 40) y) :
    |value (x - y + 2 * Drawing.margin) - (value x - value y + 2 * 20)| ≤ 1 / 2 ^ 10 := by
  have hforty : 2 * Drawing.margin = Float.ofNat 40 := by decide +kernel
  have hmargins : value (2 * Drawing.margin) = 2 * 20 := by
    rw [hforty, Binary64.value_ofNat (by decide)]
    norm_num
  have hmargins' : (2 * Drawing.margin).isFinite = true := by decide +kernel
  have hdistance := (Binary64.isRounding_sub hx.isFinite hy.isFinite).abs_value_sub_le (k := 11)
    (by decide) (by linarith [abs_sub (value x) (value y), hx.abs_value_le, hy.abs_value_le])
  have hfinite := (hx.sub hy (by linarith [Binary64.two_pow_lt_bound])).isFinite
  have hround := Binary64.isRounding_add hfinite hmargins'
  rw [hmargins] at hround
  have hx' := abs_le.1 hx.abs_value_le
  have hy' := abs_le.1 hy.abs_value_le
  have hdistance' := abs_le.1 hdistance
  have hsum : |value (x - y) + 2 * 20| < 2 ^ 42 := by
    rw [abs_lt]
    constructor
    · linarith
    · linarith
  have hsum' := hround.abs_value_sub_le (k := 11) (by decide) (by linarith)
  calc |value (x - y + 2 * Drawing.margin) - (value x - value y + 2 * 20)|
      ≤ |value (x - y + 2 * Drawing.margin) - (value (x - y) + 2 * 20)| +
          |value (x - y) + 2 * 20 - (value x - value y + 2 * 20)| := abs_sub_le _ _ _
    _ ≤ 1 / 2 ^ 11 + 1 / 2 ^ 11 := by
      rw [add_sub_add_right_eq_sub]
      exact add_le_add hsum' hdistance
    _ = 1 / 2 ^ 10 := by norm_num

/-- As long as no side of the box is further out than `2 ^ 40`, the view is rounded by less than a
thousandth. -/
theorem Within.view_isNear {b : Box} (h : b.Within (2 ^ 40)) :
    View.IsNear (1 / 2 ^ 10) b.view.values b.exactView := by
  have htop := abs_value_sub_margin_sub_le h.maxY.neg
  rw [Binary64.value_neg] at htop
  rw [exactView, Drawing.value_margin]
  exact
    { left := (abs_value_sub_margin_sub_le h.minX).trans (by norm_num)
      top := htop.trans (by norm_num)
      width := abs_value_add_margins_sub_le h.maxX h.minX
      height := abs_value_add_margins_sub_le h.maxY h.minY }

end Box

/-! ## Documents -/

namespace Xml

/-- The number in the attribute with the given name. -/
def number? (node : Xml) (name : String) : Option ℚ :=
  (node.attributes.lookup name).bind fun text ↦ Decimal.read? text.toList

/-- Whether the element has the place of the cursor in the two attributes, up to half a thousandth,
and the place is in the view with a distance of almost 20 to its edges. -/
def HasPlace (node : Xml) (x y : String) (c : Cursor) (w : View ℚ) : Prop :=
  ∃ p q, node.number? x = some p ∧ node.number? y = some q ∧ |p - value c.x| ≤ 1 / 2000 ∧
    |q - value (-c.y)| ≤ 1 / 2000 ∧ w.Holds (20 - 1 / 100) p q

theorem hasPlace_of_lookup {node : Xml} {x y : String} {c : Cursor} {v w : View ℚ}
    {turned gone : ℚ} (hx : node.attributes.lookup x = some (Drawing.coordinate c.x))
    (hy : node.attributes.lookup y = some (Drawing.coordinate (-c.y)))
    (hc : c.Within turned gone) (hv : v.Shows 20 c)
    (hw : View.IsNear (1 / 2000 + 1 / 2 ^ 10) w v) : node.HasPlace x y c w := by
  obtain ⟨p, hp, hp'⟩ := Drawing.exists_read?_coordinate hc.x.isFinite
  obtain ⟨q, hq, hq'⟩ := Drawing.exists_read?_coordinate hc.y.neg.isFinite
  refine ⟨p, q, ?_, ?_, hp', hq', (View.Holds.of_isNear hv hw hp' hq').mono (by norm_num)⟩
  · rw [number?, hx]
    exact hp
  · rw [number?, hy]
    exact hq

end Xml

namespace Drawing

/-- Whether the drawing of the steps says where the turtle was. It is read as a document whose view
is four decimals, and each end of a line and the dot are where the turtle was up to half a
thousandth, in the view and at least 19.99 away from its edges. -/
def IsAccurate (steps : List Step) : Prop :=
  ∃ viewBox w, Xml.ofString? (render steps) = some (.element "svg"
      [("xmlns", "http://www.w3.org/2000/svg"), ("viewBox", viewBox)]
      ((drawn (steps.map Step.cursor)).map (fun p ↦ lineElement p.1 p.2) ++
        (steps.map Step.cursor).getLast?.toList.map dotElement)) ∧
    View.read? viewBox = some w ∧
    (∀ p ∈ drawn (steps.map Step.cursor), (lineElement p.1 p.2).HasPlace "x1" "y1" p.1 w ∧
      (lineElement p.1 p.2).HasPlace "x2" "y2" p.2 w) ∧
    ∀ last ∈ (steps.map Step.cursor).getLast?, (dotElement last).HasPlace "cx" "cy" last w

/-- A drawing is accurate as long as no coordinate is further out than `2 ^ 40`. -/
theorem render_accurate {turned : ℚ} {steps : List Step}
    (h : ∀ s ∈ steps, s.cursor.Within turned (2 ^ 40)) : IsAccurate steps := by
  have hhull := Box.isHull_ofSteps steps
  have hwithin := Box.within_ofSteps (by positivity) h
  obtain ⟨w, hread, hwritten⟩ := View.exists_read?_text
    (hwithin.isFinite_view (by linarith [Binary64.two_pow_lt_bound]))
  have hw := hwritten.trans hwithin.view_isNear
  have hcursors : ∀ c ∈ steps.map Step.cursor,
      c.Within turned (2 ^ 40) ∧ (Box.ofSteps steps).exactView.Shows 20 c := by
    refine List.forall_mem_map.2 fun s hs ↦ ⟨h s hs, ?_⟩
    exact hhull.exactView_shows hs (Binary64.isFinite_iff.1 (h s hs).x.isFinite).1
      (Binary64.isFinite_iff.1 (h s hs).y.isFinite).1
  refine ⟨_, w, ofString?_render steps, hread, fun p hp ↦ ?_, fun last hlast ↦ ?_⟩
  · obtain ⟨hstart, hstop⟩ := mem_of_mem_drawn hp
    obtain ⟨hstart, hstart'⟩ := hcursors _ hstart
    obtain ⟨hstop, hstop'⟩ := hcursors _ hstop
    exact ⟨Xml.hasPlace_of_lookup rfl rfl hstart hstart' hw,
      Xml.hasPlace_of_lookup rfl rfl hstop hstop' hw⟩
  · obtain ⟨hlast, hlast'⟩ := hcursors _ (List.mem_of_getLast? hlast)
    exact Xml.hasPlace_of_lookup rfl rfl hlast hlast' hw

/-- The drawing of a run is accurate as long as the distances that are written in the script add up
to `2 ^ 38` at most, and the angles to a sixteenth of the range. -/
theorem render_ofScript_accurate (htrig : Binary64.BoundedTrigonometry) {script : String}
    {options : Options}
    (hpath : Instruction.total .pathLength
      ((Instruction.ofScript script).take options.maxSteps) ≤ 2 ^ 38)
    (hturns : Instruction.total .totalTurns
      ((Instruction.ofScript script).take options.maxSteps) ≤ Run.safeTotal) :
    IsAccurate (Run.ofScript script options).steps := by
  have hsafe : 2 ^ 38 ≤ Run.safeTotal := by
    rw [Run.safeTotal]
    exact pow_le_pow_right₀ one_le_two (by decide)
  refine render_accurate fun step hstep ↦
    (Run.within_ofScript htrig (hpath.trans hsafe) hturns hstep).mono le_rfl ?_
  generalize Instruction.total .pathLength _ = total at hpath ⊢
  have htotal : (total : ℚ) ≤ (2 ^ 38 : ℕ) := Nat.cast_le.2 hpath
  push_cast at htotal
  linarith

example (htrig : Binary64.BoundedTrigonometry) :
    IsAccurate (Run.ofScript "for i in range(4):\n  fd(100)\n  lt(90)").steps :=
  render_ofScript_accurate htrig (by decide +kernel) (by decide +kernel)

end Drawing

end TurtleGraphics
