import VennDiagram.Number.Scalar

/-!
# `VennDiagram.Geometry.Circle`: circles and points

The circle of a category, fixed for the whole of a layout. Screen coordinates are used throughout: `y`
grows downward.
-/

set_option autoImplicit false

namespace VennDiagram

/-- The circle of a category. Its index is the category's position, or any other number. -/
structure Circle (α : Type) where
  index : Int
  name : String
  color : String
  x : α
  y : α
  r : α
deriving DecidableEq

variable {α : Type} [Scalar α]

/-- Two points are closer than a distance. -/
def tooClose (distance x₁ y₁ x₂ y₂ : α) : Bool :=
  decide (Scalar.hypotenuse (x₁ - x₂) (y₁ - y₂) < distance)

end VennDiagram
