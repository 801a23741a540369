/-!
# `VennDiagram.Document.Basic`: documents

A document lists categories and the organizations that belong to them. A category may come with the
geometry of its circle; an organization names its categories, perhaps more than once, and may carry two
links.
-/

set_option autoImplicit false

namespace VennDiagram

/-- A category. Its circle is given by `x`, `y` and `r`, if all three are there. -/
structure Category (α : Type) where
  name : String
  color : String
  x : Option α
  y : Option α
  r : Option α
deriving DecidableEq

/-- An organization and the names of the categories it belongs to. -/
structure Organization where
  name : String
  categories : List String
  url : Option String
  careers : Option String
deriving DecidableEq, Repr

/-- Categories and organizations, in order. -/
structure Document (α : Type) where
  categories : List (Category α)
  organizations : List Organization
deriving DecidableEq

namespace Category

/-- The colour of a category that names none. -/
def defaultColor : String := "#888888"

variable {α : Type}

/-- The centre and the radius of the category's circle, if all are given. -/
def geometry? (c : Category α) : Option (α × α × α) :=
  match c.x, c.y, c.r with
  | some x, some y, some r => some (x, y, r)
  | _, _, _ => none

/-- The category comes with its circle. -/
def hasGeometry (c : Category α) : Bool := c.x.isSome && c.y.isSome && c.r.isSome

/-- The category comes with something of a circle, but not with all of it. -/
def hasPartialGeometry (c : Category α) : Bool :=
  (c.x.isSome || c.y.isSome || c.r.isSome) && !c.hasGeometry

end Category

/-- The organization names the category. -/
def Organization.isIn (o : Organization) (category : String) : Bool := o.categories.contains category

/-- A text that is there and not empty. -/
def nonempty? (s : Option String) : Option String := s.filter (· ≠ "")

end VennDiagram
