import VennDiagram.Geometry.Circle
import VennDiagram.Rules.Basic

/-!
# `VennDiagram.Geometry.TextBox`: the boxes of labels

A text is centred on its anchor horizontally. Vertically the anchor lies on the baseline: the box reaches
one text height above it and the baseline descent below it. Two texts overlap unless their boxes are
further apart than the padding along one axis. A text overlaps a circle if its box is closer to the centre
than the radius.
-/

set_option autoImplicit false

namespace VennDiagram

/-- The box of a text. `top` is the side with the smaller `y`. -/
structure TextBox (α : Type) where
  left : α
  right : α
  top : α
  bottom : α
deriving DecidableEq

variable {α : Type} [Scalar α]

namespace TextBox

/-- The box of a text anchored at a point. -/
def of (rules : Rules α) (text : String) (x y : α) : TextBox α :=
  let half := rules.textWidth text / Scalar.ofNat 2
  { left := x - half
    right := x + half
    top := y - rules.textHeight
    bottom := y + rules.baselineDescent }

/-- One box ends more than the padding before the other begins, along some axis. -/
def apart (padding : α) (a b : TextBox α) : Bool :=
  decide (a.right + padding < b.left) || decide (b.right + padding < a.left) ||
    decide (a.bottom + padding < b.top) || decide (b.bottom + padding < a.top)

end TextBox

/-- Two labels, given by text and anchor, overlap. -/
def labelsOverlap (rules : Rules α) (text₁ : String) (x₁ y₁ : α) (text₂ : String) (x₂ y₂ : α) : Bool :=
  !(TextBox.of rules text₁ x₁ y₁).apart rules.labelPadding (TextBox.of rules text₂ x₂ y₂)

/-- A label reaches strictly inside a circle. -/
def labelOverlapsCircle (rules : Rules α) (text : String) (x y : α) (c : Circle α) : Bool :=
  let b := TextBox.of rules text x y
  decide (Scalar.boxDistance b.left b.top b.right b.bottom c.x c.y < c.r)

end VennDiagram
