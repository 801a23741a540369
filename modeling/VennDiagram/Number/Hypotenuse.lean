import VennDiagram.Number.Binary64

/-!
# `VennDiagram.Number.Hypotenuse`: distances between doubles

`hypotenuse x y` is the double nearest to `√(x² + y²)`. The sum of the squares is an integer times a
power of four, so the integer square root of that sum, with enough binary places, tells on which side of
every rounding boundary the true root lies. Nothing overflows or underflows on the way. An infinite leg
gives infinity, also beside a NaN.

`boxDistance` is the distance between a point and a box, measured along the axes and rounded at every step.
-/

set_option autoImplicit false

namespace VennDiagram.Binary64

/-- Binary places of the root beyond those of the sum of squares. -/
def rootPlaces (n : Nat) : Nat := 64 - n.log2 / 2

/-- The double nearest to `√n * 2 ^ exponent`. -/
def roundRoot (n : Nat) (exponent : Int) : Float :=
  let places := rootPlaces n
  let scaled := n <<< (2 * places)
  -- The root has more bits than a double, and whether it is exact decides a half.
  let root := scaled.sqrt
  round false root (exponent - places) (root * root != scaled)

/-- The double nearest to `√(x² + y²)`. -/
def hypotenuse (x y : Float) : Float :=
  match parts x, parts y with
  | .infinite _, _ => infinity false
  | _, .infinite _ => infinity false
  | .finite _ m e, .finite _ n f =>
    -- Both legs are whole multiples of one power of two, so the sum of their squares is exact.
    let exponent := min e f
    let a := m <<< (e - exponent).toNat
    let b := n <<< (f - exponent).toNat
    roundRoot (a * a + b * b) exponent
  | _, _ => 0.0 / 0.0

/-- How far a coordinate lies outside the interval between two bounds, in whatever order they come. -/
def outside (bound₁ bound₂ v : Float) : Float :=
  let low := if bound₂ < bound₁ then bound₂ else bound₁
  let high := if bound₂ < bound₁ then bound₁ else bound₂
  [v - high, 0].foldl (fun most x => if most < x then x else most) (low - v)

/-- The distance between a point and the box with the given sides. -/
def boxDistance (left top right bottom x y : Float) : Float :=
  let dx := outside left right x
  let dy := outside top bottom y
  Float.sqrt (dx * dx + dy * dy)

end VennDiagram.Binary64
