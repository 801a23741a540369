import VennDiagram.Document.Basic
import VennDiagram.Geometry.Circle
import VennDiagram.Rules.Basic

/-!
# `VennDiagram.Placement.Arrangement`: how categories relate, and their circles

`relations` counts, for each category, the organizations in it and those it shares with each other
category. `circles` gives every category its circle: the ones that come with the document if every
category has one, and otherwise circles on a ring around a centre, evenly spaced, each the greater the
more organizations its category has.
-/

set_option autoImplicit false

namespace VennDiagram

/-- The counts of one category. -/
structure Relation where
  index : Nat
  name : String
  color : String
  /-- The organizations shared with each category, and zero for the category itself. -/
  overlaps : List Nat
  orgCount : Nat
deriving DecidableEq, Repr

namespace Document

variable {α : Type}

/-- How many organizations are in a category. -/
def memberCount (organizations : List Organization) (name : String) : Nat :=
  organizations.countP fun o => o.isIn name

/-- How many organizations are in both of two categories. -/
def sharedCount (organizations : List Organization) (name other : String) : Nat :=
  organizations.countP fun o => o.isIn name && o.isIn other

/-- The counts of all categories. -/
def relations (d : Document α) : List Relation :=
  d.categories.zipIdx.map fun (c, i) =>
    { index := i
      name := c.name
      color := c.color
      overlaps := d.categories.zipIdx.map fun (other, j) =>
        if i = j then 0 else sharedCount d.organizations c.name other.name
      orgCount := memberCount d.organizations c.name }

/-- The circles that come with the categories, if all of them have one. -/
def givenCircles? (d : Document α) : Option (List (Circle α)) :=
  if d.categories.isEmpty then none
  else
    d.categories.zipIdx.mapM fun (c, i) =>
      c.geometry?.map fun (x, y, r) => { index := i, name := c.name, color := c.color, x, y, r }

section
variable [Scalar α]

/-- The circle of a category on the ring: its angle is its share of the full turn, and its radius grows
with its share of the greatest count. -/
def ringCircle (rules : Rules α) (center : α × α) (total greatest : Nat) (s : Relation) : Circle α :=
  let share : α :=
    if 0 < greatest then Scalar.ofNat s.orgCount / Scalar.ofNat greatest else Scalar.ofNat 0
  let angle : α := Scalar.ofNat s.index / Scalar.ofNat total * Scalar.pi * Scalar.ofNat 2
  { index := s.index
    name := s.name
    color := s.color
    x := center.1 + Scalar.cosine angle * rules.ringDistance
    y := center.2 + Scalar.sine angle * rules.ringDistance
    r := rules.baseRadius + share * rules.radiusRange }

/-- The circles of all categories on a ring. -/
def ringCircles (d : Document α) (rules : Rules α) (center : α × α) : List (Circle α) :=
  let relations := d.relations
  let greatest := (relations.map Relation.orgCount).foldl max 0
  relations.map (ringCircle rules center relations.length greatest)

/-- The circles of all categories, in order. -/
def circles (d : Document α) (rules : Rules α) (center : α × α) : List (Circle α) :=
  d.givenCircles?.getD (d.ringCircles rules center)

end

end Document
end VennDiagram
