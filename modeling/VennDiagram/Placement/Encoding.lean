import VennDiagram.Formula.Basic
import VennDiagram.Geometry.TextBox
import VennDiagram.Placement.Candidate

/-!
# `VennDiagram.Placement.Encoding`: choosing candidates as a formula

There is one selector variable for each candidate of each entity, an entity being an organization or a
label: first those of all organizations, then those of all labels, each in order of entity and
candidate. The search prefers low variables and tries true first, so this order decides which of several
solutions is found.

The clauses say that every entity with candidates takes exactly one of them, and that no two
organizations and no two labels take candidates that overlap. Labels that overlap circles are counted,
but nothing forbids them.
-/

set_option autoImplicit false

namespace VennDiagram

/-- The two kinds of entity. -/
inductive EntityKind where
  | organization
  | label
deriving DecidableEq, Repr

/-- What a selector variable stands for. -/
structure Selector where
  kind : EntityKind
  entity : Nat
  candidate : Nat
deriving DecidableEq, Repr

/-- How many clauses of each family an encoding has, and how many labels overlap a circle. -/
structure ClauseCounts where
  exactlyOne : Nat
  atMostOne : Nat
  orgConflict : Nat
  labelConflict : Nat
  labelCircleOverlaps : Nat
deriving DecidableEq, Repr

/-- A formula, the selectors of each entity in it, and what each selector stands for. -/
structure Encoding where
  formula : Formula
  orgVars : List (List Nat)
  labelVars : List (List Nat)
  selectors : List (Nat × Selector)
  counts : ClauseCounts
deriving DecidableEq, Repr

/-- Labels without a circle to name them. -/
inductive EncodeError where
  | missingCircle
deriving DecidableEq, Repr

/-- All pairs of an element and a later one, in order. -/
def pairs {β : Type} : List β → List (β × β)
  | [] => []
  | x :: rest => rest.map (x, ·) ++ pairs rest

namespace Encoding

/-- Consecutive variables from `next` on, in groups of the given sizes. -/
def groupsFrom (next : Nat) : List Nat → List (List Nat)
  | [] => []
  | size :: rest => List.range' next size :: groupsFrom (next + size) rest

/-- What the variables of groups stand for. -/
def selectorsOf (kind : EntityKind) (groups : List (List Nat)) : List (Nat × Selector) :=
  groups.zipIdx.flatMap fun (group, entity) =>
    group.zipIdx.map fun (var, candidate) => (var, ⟨kind, entity, candidate⟩)

/-- One of the variables is true. -/
def someOf (group : List Nat) : Clause := group.map Literal.yes

/-- Not both of two variables are true. -/
def notBoth (v w : Nat) : Clause := [Literal.no v, Literal.no w]

/-- Exactly one of the variables is true, if there are any. -/
def exactlyOneOf (group : List Nat) : List Clause :=
  if group.isEmpty then [] else someOf group :: (pairs group).map fun (v, w) => notBoth v w

/-- No two entities take candidates that overlap. An entity is given by its candidates, each with its
variable. -/
def conflicts {β : Type} (overlap : β → β → Bool) (entities : List (List (Nat × β))) : List Clause :=
  (pairs entities).flatMap fun (first, second) =>
    first.flatMap fun (v, a) =>
      second.filterMap fun (w, b) => if overlap a b then some (notBoth v w) else none

variable {α : Type} [Scalar α]

/-- The dots of two organizations are too close. -/
def dotsOverlap (rules : Rules α) (a b : DotCandidate α) : Bool :=
  tooClose rules.minOrgSeparation a.x a.y b.x b.y

/-- Two labels overlap. A label is given by its text and its anchor. -/
def labelsConflict (rules : Rules α) (a b : String × LabelCandidate α) : Bool :=
  labelsOverlap rules a.1 a.2.x a.2.y b.1 b.2.x b.2.y

/-- A label overlaps one of the circles. -/
def overlapsSomeCircle (rules : Rules α) (circles : List (Circle α)) (l : String × LabelCandidate α) :
    Bool :=
  circles.any (labelOverlapsCircle rules l.1 l.2.x l.2.y)

/-- The label candidates of each circle, each with the text of the label. Lists beyond the circles get
no text. -/
def named (circles : List (Circle α)) (labels : List (List (LabelCandidate α))) :
    List (List (String × LabelCandidate α)) :=
  labels.zipIdx.map fun (candidates, i) =>
    let text := (circles[i]?.map Circle.name).getD ""
    candidates.map (text, ·)

/-- The text of a label is asked for that has no circle: two labels are compared one of which is
beyond the circles, or the candidates of such a label are held against the circles there are. -/
def lacksCircle (circles : List (Circle α)) (labels : List (List (LabelCandidate α))) : Bool :=
  (2 ≤ labels.length && circles.length < labels.length) ||
    (!circles.isEmpty && (labels.drop circles.length).any (!·.isEmpty))

end Encoding

open Encoding in
/-- The formula whose models are the placements without overlap, added to a formula that may already
hold variables and clauses. The label candidates at a position belong to the circle at that position. -/
def encode {α : Type} [Scalar α] (start : Formula) (rules : Rules α) (circles : List (Circle α))
    (dots : List (List (DotCandidate α))) (labels : List (List (LabelCandidate α))) :
    Except EncodeError Encoding :=
  if lacksCircle circles labels then .error .missingCircle
  else
    let texts := named circles labels
    let orgVars := groupsFrom (start.numVars + 1) (dots.map List.length)
    let orgTotal := dots.flatten.length
    -- The variables of the labels come after those of all organizations.
    let labelVars := groupsFrom (start.numVars + orgTotal + 1) (labels.map List.length)
    let labelTotal := labels.flatten.length
    let groups := orgVars ++ labelVars
    let choices := groups.flatMap exactlyOneOf
    let orgClauses := conflicts (dotsOverlap rules) (List.zipWith List.zip orgVars dots)
    let labelClauses := conflicts (labelsConflict rules) (List.zipWith List.zip labelVars texts)
    .ok
      { formula :=
          { numVars := start.numVars + orgTotal + labelTotal
            clauses := start.clauses ++ choices ++ orgClauses ++ labelClauses }
        orgVars
        labelVars
        selectors := selectorsOf .organization orgVars ++ selectorsOf .label labelVars
        counts :=
          { exactlyOne := groups.countP (!·.isEmpty)
            atMostOne := (groups.flatMap pairs).length
            orgConflict := orgClauses.length
            labelConflict := labelClauses.length
            labelCircleOverlaps := texts.flatten.countP (overlapsSomeCircle rules circles) } }

end VennDiagram
