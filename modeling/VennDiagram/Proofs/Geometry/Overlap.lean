import VennDiagram.Proofs.Placement.Exact

/-!
# `VennDiagram.Proofs.Geometry.Overlap`: labels that overlap

Two labels overlap unless their boxes are further apart than the padding along one axis. Over the real
numbers that is a statement about points: two intervals are not further apart than the padding if and only
if each has a point that is as close to one of the other (`exists_close_iff`), and what is close along both
axes is close as a box (`not_apart_iff`).

Moving both boxes changes nothing (`apart_moved`), and neither does exchanging them. A box that holds
another one, or a greater padding, leaves less room to be apart (`apart_of_within`), and the box of a
longer text holds that of a shorter one (`within_of_textWidth_le`). `labelsOverlap_exact` says so of labels.
-/

set_option autoImplicit false

namespace VennDiagram

/-- Two intervals are not further apart than `p` if and only if they have points that are not. -/
theorem exists_close_iff {l r l' r' p : ℝ} (h : l ≤ r) (h' : l' ≤ r') (hp : 0 ≤ p) :
    (∃ x x', (l ≤ x ∧ x ≤ r) ∧ (l' ≤ x' ∧ x' ≤ r') ∧ |x - x'| ≤ p) ↔ ¬ r + p < l' ∧ ¬ r' + p < l := by
  constructor
  · rintro ⟨x, x', ⟨hl, hr⟩, ⟨hl', hr'⟩, hclose⟩
    obtain ⟨hbelow, habove⟩ := abs_le.mp hclose
    constructor <;> linarith
  · rintro ⟨hgap, hgap'⟩
    rcases lt_or_ge r l' with hleft | hleft
    · -- The first interval ends before the other begins.
      refine ⟨r, l', ⟨h, le_rfl⟩, ⟨le_rfl, h'⟩, abs_le.mpr ⟨?_, ?_⟩⟩ <;> linarith
    rcases lt_or_ge r' l with hright | hright
    · refine ⟨l, r', ⟨le_rfl, h⟩, ⟨h', le_rfl⟩, abs_le.mpr ⟨?_, ?_⟩⟩ <;> linarith
    · -- The greater of the two left ends is in both.
      refine ⟨max l l', max l l', ⟨le_max_left _ _, max_le h hleft⟩, ⟨le_max_right _ _, max_le hright h'⟩, ?_⟩
      rwa [sub_self, abs_zero]

namespace TextBox

/-- The point lies in the box, the edges included. -/
structure Holds (b : TextBox ℝ) (x y : ℝ) : Prop where
  left_le : b.left ≤ x
  le_right : x ≤ b.right
  top_le : b.top ≤ y
  le_bottom : y ≤ b.bottom

/-- Every side of a box lies on or inside that of another one. -/
structure Within (b b' : TextBox ℝ) : Prop where
  left_le : b'.left ≤ b.left
  right_le : b.right ≤ b'.right
  top_le : b'.top ≤ b.top
  bottom_le : b.bottom ≤ b'.bottom

/-- Every box lies within itself. -/
theorem Within.refl (b : TextBox ℝ) : b.Within b := ⟨le_rfl, le_rfl, le_rfl, le_rfl⟩

variable {padding : ℝ} {a b : TextBox ℝ}

/-- Boxes are not apart exactly if neither is beyond the other, in width or in height. -/
theorem apart_eq_false_iff :
    a.apart padding b = false ↔
      (¬ a.right + padding < b.left ∧ ¬ b.right + padding < a.left) ∧
        ¬ a.bottom + padding < b.top ∧ ¬ b.bottom + padding < a.top := by
  simp only [apart, Bool.or_eq_false_iff, decide_eq_false_iff_not, and_assoc]

/-- Two boxes are not further apart than the padding if and only if they have points that are not, along
either axis. -/
theorem not_apart_iff (ha : a.left ≤ a.right) (ha' : a.top ≤ a.bottom) (hb : b.left ≤ b.right)
    (hb' : b.top ≤ b.bottom) (hpadding : 0 ≤ padding) :
    a.apart padding b = false ↔
      ∃ x y x' y', a.Holds x y ∧ b.Holds x' y' ∧ |x - x'| ≤ padding ∧ |y - y'| ≤ padding := by
  have hhorizontal := exists_close_iff ha hb hpadding
  have hvertical := exists_close_iff ha' hb' hpadding
  refine apart_eq_false_iff.trans ((and_congr hhorizontal.symm hvertical.symm).trans ?_)
  constructor
  · rintro ⟨⟨x, x', hx, hx', hclose⟩, y, y', hy, hy', hclose'⟩
    exact ⟨x, y, x', y', ⟨hx.1, hx.2, hy.1, hy.2⟩, ⟨hx'.1, hx'.2, hy'.1, hy'.2⟩, hclose, hclose'⟩
  · rintro ⟨x, y, x', y', h, h', hclose, hclose'⟩
    exact ⟨⟨x, x', ⟨h.left_le, h.le_right⟩, ⟨h'.left_le, h'.le_right⟩, hclose⟩,
      y, y', ⟨h.top_le, h.le_bottom⟩, ⟨h'.top_le, h'.le_bottom⟩, hclose'⟩

/-- Boxes that are too far apart for a greater padding, and as parts of others, are too far apart. -/
theorem apart_of_within {padding' : ℝ} {a' b' : TextBox ℝ} (hpadding : padding ≤ padding')
    (ha : a.Within a') (hb : b.Within b') (hapart : a'.apart padding' b' = true) :
    a.apart padding b = true := by
  obtain ⟨haleft, haright, hatop, habottom⟩ := ha
  obtain ⟨hbleft, hbright, hbtop, hbbottom⟩ := hb
  have hless {side side' bound bound' : ℝ} (hside : side ≤ side') (hbound : bound' ≤ bound)
      (h : side' + padding' < bound') : side + padding < bound := by
    linarith
  simp only [apart, Bool.or_eq_true, decide_eq_true_eq] at hapart ⊢
  exact hapart.imp (.imp (.imp (hless haright hbleft) (hless hbright haleft)) (hless habottom hbtop))
    (hless hbbottom hatop)

/-- The box, moved. -/
def moved (b : TextBox ℝ) (dx dy : ℝ) : TextBox ℝ :=
  ⟨b.left + dx, b.right + dx, b.top + dy, b.bottom + dy⟩

/-- Moving both boxes alike keeps them apart or not. -/
theorem apart_moved (a b : TextBox ℝ) (padding dx dy : ℝ) :
    (a.moved dx dy).apart padding (b.moved dx dy) = a.apart padding b := by
  have hless (side bound d : ℝ) : side + d + padding < bound + d ↔ side + padding < bound := by
    constructor <;> intro h <;> linarith
  simp only [apart, moved, hless]

variable (rules : Rules ℝ) (text : String) (x y : ℝ)

/-- The box of a text that is moved is the box, moved. -/
theorem of_add (dx dy : ℝ) : of rules text (x + dx) (y + dy) = (of rules text x y).moved dx dy := by
  simp only [of, moved, mk.injEq]
  refine ⟨?_, ?_, ?_, ?_⟩ <;> ring

variable {rules} {text}

/-- A wider text has a greater box. -/
theorem within_of_textWidth_le {text' : String} (h : rules.textWidth text ≤ rules.textWidth text') :
    (of rules text x y).Within (of rules text' x y) := by
  have hhalf : rules.textWidth text / 2 ≤ rules.textWidth text' / 2 := by linarith
  have htwo : (Scalar.ofNat 2 : ℝ) = 2 := Int.cast_ofNat 2
  constructor <;> simp only [of, htwo] <;> linarith

/-- The box of a text does not end before it begins. -/
theorem of_left_le_right (h : 0 ≤ rules.textWidth text) :
    (of rules text x y).left ≤ (of rules text x y).right := by
  have htwo : (Scalar.ofNat 2 : ℝ) = 2 := Int.cast_ofNat 2
  simp only [of, htwo]
  linarith

/-- Nor does it in height. -/
theorem of_top_le_bottom (h : 0 ≤ rules.textHeight + rules.baselineDescent) :
    (of rules text x y).top ≤ (of rules text x y).bottom := by
  simp only [of]
  linarith

end TextBox

/-- A longer text is no less wide. -/
theorem Rules.textWidth_le_of_length_le {rules : Rules ℝ} (hwidth : 0 ≤ rules.charWidth)
    {text text' : String} (h : text.length ≤ text'.length) :
    rules.textWidth text ≤ rules.textWidth text' := by
  have hcast : (text.length : ℝ) ≤ text'.length := Nat.cast_le.mpr h
  have hcount (n : ℕ) : (Scalar.ofNat n : ℝ) = n := Int.cast_natCast n
  simp only [textWidth, hcount]
  have hless := mul_le_mul_of_nonneg_right hcast hwidth
  linarith

section
variable {rules : Rules ℝ} {text₁ text₂ : String} {x₁ y₁ x₂ y₂ : ℝ}

/-- Labels that overlap still do with greater boxes and a greater padding. -/
theorem labelsOverlap_of_within {rules' : Rules ℝ} {text₁' text₂' : String}
    (hpadding : rules.labelPadding ≤ rules'.labelPadding)
    (h₁ : (TextBox.of rules text₁ x₁ y₁).Within (TextBox.of rules' text₁' x₁ y₁))
    (h₂ : (TextBox.of rules text₂ x₂ y₂).Within (TextBox.of rules' text₂' x₂ y₂))
    (hoverlap : labelsOverlap rules text₁ x₁ y₁ text₂ x₂ y₂ = true) :
    labelsOverlap rules' text₁' x₁ y₁ text₂' x₂ y₂ = true := by
  rw [labelsOverlap, Bool.not_eq_true', ← Bool.not_eq_true] at hoverlap ⊢
  exact fun hapart => hoverlap (TextBox.apart_of_within hpadding h₁ h₂ hapart)

/-- Two labels overlap if and only if a point in the box of the one is not further than the padding from a
point in the box of the other, along either axis. It does not matter which label comes first or where both
are moved to, and labels that overlap still do if texts get longer or the padding grows. -/
theorem labelsOverlap_exact (hwidth₁ : 0 ≤ rules.textWidth text₁) (hwidth₂ : 0 ≤ rules.textWidth text₂)
    (hheight : 0 ≤ rules.textHeight + rules.baselineDescent) (hpadding : 0 ≤ rules.labelPadding) :
    (labelsOverlap rules text₁ x₁ y₁ text₂ x₂ y₂ = true ↔
      ∃ a₁ b₁ a₂ b₂, (TextBox.of rules text₁ x₁ y₁).Holds a₁ b₁ ∧
        (TextBox.of rules text₂ x₂ y₂).Holds a₂ b₂ ∧
        |a₁ - a₂| ≤ rules.labelPadding ∧ |b₁ - b₂| ≤ rules.labelPadding) ∧
    labelsOverlap rules text₂ x₂ y₂ text₁ x₁ y₁ = labelsOverlap rules text₁ x₁ y₁ text₂ x₂ y₂ ∧
    (∀ dx dy, labelsOverlap rules text₁ (x₁ + dx) (y₁ + dy) text₂ (x₂ + dx) (y₂ + dy)
      = labelsOverlap rules text₁ x₁ y₁ text₂ x₂ y₂) ∧
    (∀ text₁' text₂' : String, 0 ≤ rules.charWidth → text₁.length ≤ text₁'.length →
      text₂.length ≤ text₂'.length → labelsOverlap rules text₁ x₁ y₁ text₂ x₂ y₂ = true →
      labelsOverlap rules text₁' x₁ y₁ text₂' x₂ y₂ = true) ∧
    ∀ padding, rules.labelPadding ≤ padding → labelsOverlap rules text₁ x₁ y₁ text₂ x₂ y₂ = true →
      labelsOverlap { rules with labelPadding := padding } text₁ x₁ y₁ text₂ x₂ y₂ = true := by
  refine ⟨?_, labelsOverlap_comm _ _ _ _ _ _ _, fun dx dy => ?_, ?_, ?_⟩
  · rw [labelsOverlap, Bool.not_eq_true']
    exact TextBox.not_apart_iff (TextBox.of_left_le_right x₁ y₁ hwidth₁)
      (TextBox.of_top_le_bottom x₁ y₁ hheight) (TextBox.of_left_le_right x₂ y₂ hwidth₂)
      (TextBox.of_top_le_bottom x₂ y₂ hheight) hpadding
  · rw [labelsOverlap, labelsOverlap, TextBox.of_add, TextBox.of_add, TextBox.apart_moved]
  · intro text₁' text₂' hchar hlength₁ hlength₂
    -- A longer text has a wider box around the same point, and more padding asks for more room.
    exact labelsOverlap_of_within le_rfl
      (TextBox.within_of_textWidth_le x₁ y₁ (Rules.textWidth_le_of_length_le hchar hlength₁))
      (TextBox.within_of_textWidth_le x₂ y₂ (Rules.textWidth_le_of_length_le hchar hlength₂))
  · intro padding hgrows
    exact labelsOverlap_of_within hgrows (TextBox.Within.refl _) (TextBox.Within.refl _)

end

/-- Two labels of which the one ends as far before the other begins as the padding is wide. -/
theorem labelsOverlap_exact_gap :
    let rules : Rules ℝ :=
      ⟨1000, 800, 60, 15, 10, 20, 14, 1.5, 8, 20, 15, 25, 100, 24, 65, 80, 80, 150, 30⟩
    0 ≤ rules.textWidth "A" ∧ 0 ≤ rules.textWidth "BC" ∧ 0 ≤ rules.textHeight + rules.baselineDescent ∧
      0 ≤ rules.labelPadding ∧
      (labelsOverlap rules "A" 0 0 "BC" 50 44 = true ↔
        ∃ a₁ b₁ a₂ b₂, (TextBox.of rules "A" 0 0).Holds a₁ b₁ ∧ (TextBox.of rules "BC" 50 44).Holds a₂ b₂ ∧
          |a₁ - a₂| ≤ rules.labelPadding ∧ |b₁ - b₂| ≤ rules.labelPadding) ∧
      labelsOverlap rules "BC" 50 44 "A" 0 0 = labelsOverlap rules "A" 0 0 "BC" 50 44 ∧
      (∀ dx dy, labelsOverlap rules "A" (0 + dx) (0 + dy) "BC" (50 + dx) (44 + dy)
        = labelsOverlap rules "A" 0 0 "BC" 50 44) ∧
      (∀ text₁' text₂' : String, 0 ≤ rules.charWidth → "A".length ≤ text₁'.length →
        "BC".length ≤ text₂'.length → labelsOverlap rules "A" 0 0 "BC" 50 44 = true →
        labelsOverlap rules text₁' 0 0 text₂' 50 44 = true) ∧
      ∀ padding, rules.labelPadding ≤ padding → labelsOverlap rules "A" 0 0 "BC" 50 44 = true →
        labelsOverlap { rules with labelPadding := padding } "A" 0 0 "BC" 50 44 = true := by
  intro rules
  have hwidth (text : String) : 0 ≤ rules.textWidth text := by
    have hcount : (0 : ℝ) ≤ Scalar.ofNat text.length := Int.cast_nonneg (Int.natCast_nonneg _)
    have hproduct : 0 ≤ Scalar.ofNat text.length * rules.charWidth :=
      mul_nonneg hcount (by norm_num [rules])
    exact add_nonneg hproduct (by norm_num [rules])
  have hheight : 0 ≤ rules.textHeight + rules.baselineDescent := by
    norm_num [rules, Rules.textHeight]
  have hpadding : 0 ≤ rules.labelPadding := by norm_num [rules]
  exact ⟨hwidth _, hwidth _, hheight, hpadding,
    labelsOverlap_exact (hwidth _) (hwidth _) hheight hpadding⟩

end VennDiagram
