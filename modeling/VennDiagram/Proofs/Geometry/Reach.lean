import VennDiagram.Proofs.Geometry.Overlap

/-!
# `VennDiagram.Proofs.Geometry.Reach`: labels that reach into a circle

A label overlaps a circle if the distance of its box from the centre is less than the radius. The distance
is measured by the geometry library, so any function of the sides and the point may stand in its place
(`Scalar.withBoxDistance`). All that is asked of it is what the library says of it: it measures along the
axes, with the sides put in order (`MeasuresBoxes`). Over the real numbers this is the least distance from
the centre to a point of the box (`isLeast_boxDistance`), so a label overlaps a circle just if some point of
its box lies inside (`labelOverlapsCircle_exact`).

Along one axis, the nearest point of an interval is the coordinate itself, if it lies in the interval, and
otherwise the bound on its side (`isLeast_outside`). The two axes do not depend on each other, and the
distance grows with both legs, so the nearest point of the box is the nearest one along either axis.

A box may have its sides swapped, since a text may have a negative width. The interval between two bounds
is the same in whatever order they come, so nothing is asked of the rules.
-/

set_option autoImplicit false

namespace VennDiagram

namespace TextBox

/-- The box with its sides in order. -/
noncomputable def inOrder (b : TextBox ℝ) : TextBox ℝ where
  left := min b.left b.right
  right := max b.left b.right
  top := min b.top b.bottom
  bottom := max b.top b.bottom

/-- A box holds a point exactly if both coordinates lie between its edges, whichever comes first. -/
theorem holds_inOrder_iff {b : TextBox ℝ} {x y : ℝ} :
    b.inOrder.Holds x y ↔ x ∈ Set.uIcc b.left b.right ∧ y ∈ Set.uIcc b.top b.bottom :=
  ⟨fun h => ⟨⟨h.left_le, h.le_right⟩, h.top_le, h.le_bottom⟩, fun h => ⟨h.1.1, h.1.2, h.2.1, h.2.2⟩⟩

/-- How far a coordinate lies outside the interval between two bounds is the least distance to a point of
the interval. -/
theorem isLeast_outside (bound₁ bound₂ v : ℝ) :
    IsLeast ((fun x => |x - v|) '' Set.uIcc bound₁ bound₂) (outside bound₁ bound₂ v) := by
  have hle : min bound₁ bound₂ ≤ max bound₁ bound₂ := min_le_max
  rw [outside, Set.uIcc]
  -- The order of the bounds does not matter any more.
  generalize min bound₁ bound₂ = low at hle ⊢
  generalize max bound₁ bound₂ = high at hle ⊢
  constructor
  · rcases lt_or_ge v low with hbelow | hbelow
    · have hside : max (low - v) (v - high) = low - v := max_eq_left (by linarith)
      refine ⟨low, ⟨le_rfl, hle⟩, ?_⟩
      show |low - v| = _
      rw [hside, abs_of_pos (by linarith), max_eq_left (by linarith)]
    rcases lt_or_ge high v with habove | habove
    · have hside : max (low - v) (v - high) = v - high := max_eq_right (by linarith)
      refine ⟨high, ⟨hle, le_rfl⟩, ?_⟩
      show |high - v| = _
      rw [hside, abs_of_neg (by linarith), neg_sub, max_eq_left (by linarith)]
    · refine ⟨v, ⟨hbelow, habove⟩, ?_⟩
      show |v - v| = _
      rw [sub_self, abs_zero, max_eq_right (max_le (by linarith) (by linarith))]
  · rintro _ ⟨x, ⟨hlow, hhigh⟩, rfl⟩
    show _ ≤ |x - v|
    have hright := le_abs_self (x - v)
    have hleft := neg_abs_le (x - v)
    exact max_le (max_le (by linarith) (by linarith)) (abs_nonneg _)

end TextBox

/-- The function measures the distance between a box and a point along the axes: it is the hypotenuse of how
far the point lies outside the box along each of them. -/
def MeasuresBoxes (distance : (left top right bottom x y : ℝ) → ℝ) : Prop :=
  ∀ left top right bottom x y,
    distance left top right bottom x y = √(outside left right x ^ 2 + outside top bottom y ^ 2)

/-- Real numbers, with any function for the distance between a box and a point. -/
@[reducible] noncomputable def Scalar.withBoxDistance (distance : (left top right bottom x y : ℝ) → ℝ) :
    Scalar ℝ :=
  { (inferInstance : Scalar ℝ) with boxDistance := distance }

section
variable {distance : (left top right bottom x y : ℝ) → ℝ} (hdistance : MeasuresBoxes distance)
include hdistance

/-- The distance between a box and a point is the least distance between the point and one of the box. -/
theorem isLeast_boxDistance (b : TextBox ℝ) (x y : ℝ) :
    IsLeast {d | ∃ x' y', b.inOrder.Holds x' y' ∧ d = √((x' - x) ^ 2 + (y' - y) ^ 2)}
      (distance b.left b.top b.right b.bottom x y) := by
  obtain ⟨⟨x₀, hx₀, hdx⟩, hleastx⟩ := TextBox.isLeast_outside b.left b.right x
  obtain ⟨⟨y₀, hy₀, hdy⟩, hleasty⟩ := TextBox.isLeast_outside b.top b.bottom y
  -- The nearest point is found along each axis by itself.
  have hnearest : distance b.left b.top b.right b.bottom x y = √(|x₀ - x| ^ 2 + |y₀ - y| ^ 2) := by
    rw [hdistance, ← hdx, ← hdy]
  rw [hnearest]
  constructor
  · exact ⟨x₀, y₀, TextBox.holds_inOrder_iff.mpr ⟨hx₀, hy₀⟩, by rw [sq_abs, sq_abs]⟩
  · rintro _ ⟨x', y', hholds, rfl⟩
    obtain ⟨hx', hy'⟩ := TextBox.holds_inOrder_iff.mp hholds
    have hx : |x₀ - x| ≤ |x' - x| := by
      rw [show |x₀ - x| = _ from hdx]
      exact hleastx ⟨x', hx', rfl⟩
    have hy : |y₀ - y| ≤ |y' - y| := by
      rw [show |y₀ - y| = _ from hdy]
      exact hleasty ⟨y', hy', rfl⟩
    rw [← sq_abs (x' - x), ← sq_abs (y' - y)]
    gcongr

/-- A label overlaps a circle if and only if some point of its box, the sides put in order, is closer to
the centre than the radius. So no label overlaps a circle whose radius is not positive. -/
theorem labelOverlapsCircle_exact (rules : Rules ℝ) (text : String) (x y : ℝ) (c : Circle ℝ) :
    (@labelOverlapsCircle ℝ (.withBoxDistance distance) rules text x y c = true ↔
      ∃ x' y', (TextBox.of rules text x y).inOrder.Holds x' y' ∧
        √((x' - c.x) ^ 2 + (y' - c.y) ^ 2) < c.r) ∧
    (c.r ≤ 0 → @labelOverlapsCircle ℝ (.withBoxDistance distance) rules text x y c = false) := by
  let b := TextBox.of rules text x y
  obtain ⟨⟨x₀, y₀, hholds, hnearest⟩, hleast⟩ := isLeast_boxDistance hdistance b c.x c.y
  have hreaches : @labelOverlapsCircle ℝ (.withBoxDistance distance) rules text x y c = true ↔
      distance b.left b.top b.right b.bottom c.x c.y < c.r := decide_eq_true_iff
  constructor
  · rw [hreaches]
    constructor
    · intro hlt
      exact ⟨x₀, y₀, hholds, hnearest ▸ hlt⟩
    · rintro ⟨x', y', hholds', hlt⟩
      exact lt_of_le_of_lt (hleast ⟨x', y', hholds', rfl⟩) hlt
  · intro hr
    -- A distance is never negative, so none is below such a radius.
    rw [← Bool.not_eq_true, hreaches, hnearest, not_lt]
    exact hr.trans (Real.sqrt_nonneg _)

end

/-- The label reaches from -15 to 15 and from -21 to 8. It overlaps a circle beyond its corner whose radius is
6, since the corner is 5 away from the centre, and it overlaps no circle whose radius is zero, although the
centre lies in it. -/
theorem labelOverlapsCircle_exact_corner :
    let distance : (left top right bottom x y : ℝ) → ℝ := fun left top right bottom x y =>
      √(max (max (min left right - x) (x - max left right)) 0 ^ 2 +
        max (max (min top bottom - y) (y - max top bottom)) 0 ^ 2)
    let rules : Rules ℝ :=
      ⟨1000, 800, 60, 15, 10, 20, 14, 1.5, 8, 20, 15, 25, 100, 24, 65, 80, 80, 150, 30⟩
    MeasuresBoxes distance ∧
      @labelOverlapsCircle ℝ (.withBoxDistance distance) rules "A" 0 0 ⟨0, "A", "red", 18, 12, 6⟩ = true ∧
      @labelOverlapsCircle ℝ (.withBoxDistance distance) rules "A" 0 0 ⟨0, "A", "red", 0, 0, 0⟩ = false := by
  intro distance rules
  have hdistance : MeasuresBoxes distance := fun _ _ _ _ _ _ => rfl
  have hbox : TextBox.of rules "A" 0 0 = ⟨-15, 15, -21, 8⟩ := by
    have hlength : (Scalar.ofNat "A".length : ℝ) = 1 := Int.cast_one
    have htwo : (Scalar.ofNat 2 : ℝ) = 2 := Int.cast_ofNat 2
    rw [TextBox.of, Rules.textWidth, Rules.textHeight, hlength, htwo]
    norm_num [rules]
  have hcorner : (⟨-15, 15, -21, 8⟩ : TextBox ℝ).inOrder.Holds 15 8 := by
    rw [TextBox.holds_inOrder_iff, Set.uIcc_of_le (by norm_num), Set.uIcc_of_le (by norm_num)]
    norm_num
  -- The corner of the box is at distance five from the centre.
  have hnear : √((15 - 18 : ℝ) ^ 2 + (8 - 12) ^ 2) < 6 := by
    rw [Real.sqrt_lt' (by norm_num)]
    norm_num
  obtain ⟨hoverlaps, -⟩ := labelOverlapsCircle_exact hdistance rules "A" 0 0 ⟨0, "A", "red", 18, 12, 6⟩
  obtain ⟨-, hpoint⟩ := labelOverlapsCircle_exact hdistance rules "A" 0 0 ⟨0, "A", "red", 0, 0, 0⟩
  exact ⟨hdistance, hoverlaps.mpr ⟨15, 8, hbox ▸ hcorner, hnear⟩, hpoint le_rfl⟩

end VennDiagram
