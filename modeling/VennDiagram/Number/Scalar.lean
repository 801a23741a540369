import VennDiagram.Number.Circular
import VennDiagram.Number.Hypotenuse

/-!
# `VennDiagram.Number.Scalar`: what the geometry asks of its numbers

Every coordinate, distance and score is of a type with the operations of `Scalar`. The geometry uses
nothing else, and no law of arithmetic: programs run on doubles, whose operations round, and statements
about exact arithmetic are about the same functions on other numbers. A scan from a number to another by
equal steps needs to know how many steps it can take at most; that is the one bound a type of numbers
has to supply.
-/

set_option autoImplicit false

namespace VennDiagram

/-- Numbers for coordinates. -/
class Scalar (α : Type) extends Add α, Sub α, Mul α, Div α, LT α, LE α where
  ofInt : Int → α
  pi : α
  sine : α → α
  cosine : α → α
  hypotenuse : α → α → α
  /-- The distance between a point and the box with the given sides, as the geometry library measures it. -/
  boxDistance : (left top right bottom x y : α) → α
  /-- A bound on the number of values `first`, `first + step`, `first + step + step`, … that are not
  beyond `last`, as long as they increase. -/
  scanBound : (first last step : α) → Nat
  decLt : (x y : α) → Decidable (x < y)
  decLe : (x y : α) → Decidable (x ≤ y)

namespace Scalar

variable {α : Type} [Scalar α]

instance (x y : α) : Decidable (x < y) := decLt x y

instance (x y : α) : Decidable (x ≤ y) := decLe x y

/-- A natural number. -/
def ofNat (n : Nat) : α := ofInt n

/-- The least of a list of numbers that starts with `first`; of several the first one. -/
def least (first : α) (rest : List α) : α :=
  rest.foldl (fun best x => if x < best then x else best) first

/-- The greatest of a list of numbers that starts with `first`; of several the first one. -/
def greatest (first : α) (rest : List α) : α :=
  rest.foldl (fun best x => if best < x then x else best) first

/-- The sum of a list of numbers, from the left, starting at zero. -/
def sum (xs : List α) : α := xs.foldl (· + ·) (ofNat 0)

end Scalar

/-- Doubles, with every operation correctly rounded. -/
instance : Scalar Float where
  ofInt := Float.ofInt
  pi := 3.141592653589793
  sine := Circular.sine
  cosine := Circular.cosine
  hypotenuse := Binary64.hypotenuse
  boxDistance := Binary64.boxDistance
  -- There are fewer doubles than that.
  scanBound := fun _ _ _ => Nat.pow 2 64
  decLt := fun x y => inferInstanceAs (Decidable (x < y))
  decLe := fun x y => inferInstanceAs (Decidable (x ≤ y))

end VennDiagram
