import VennDiagram.Formula.Result
import VennDiagram.Placement.Encoding

/-!
# `VennDiagram.Placement.Layout`: layouts, decoded or fallen back on

A layout gives every circle its label and every organization its dot, as far as they are placed.
`decode` reads a layout off a model: each entity takes the first of its candidates whose selector is
true, and every list on the way there is looked into by index. `fallback` needs no model: a dot goes to the
mean of the centres of its circles, a label straight above its circle.
-/

set_option autoImplicit false

namespace VennDiagram

/-- How a layout was found. -/
inductive Method where
  | sat
  | fallback
deriving DecidableEq, Repr

/-- The name of a method. -/
def Method.name : Method → String
  | .sat => "sat"
  | .fallback => "fallback"

/-- Where a dot is. A dot that was chosen among candidates has a score. -/
structure Position (α : Type) where
  x : α
  y : α
  score : Option α
deriving DecidableEq

/-- An organization and the position of its dot, if it is placed. -/
structure PlacedOrganization (α : Type) where
  organization : Organization
  position : Option (Position α)
deriving DecidableEq

/-- A circle and the anchor of its label, if it is placed. -/
structure PlacedCircle (α : Type) where
  circle : Circle α
  label : Option (LabelCandidate α)
deriving DecidableEq

/-- The numbers of a run: the size of the formula, the effort of the search and the clauses by
family. -/
structure Statistics where
  numVars : Nat
  numClauses : Nat
  decisions : Nat
  backtracks : Nat
  /-- The seconds the search took, to four places after the point. -/
  elapsed : Float
  counts : ClauseCounts

/-- Circles with their labels and organizations with their dots. -/
structure Layout (α : Type) where
  circles : List (PlacedCircle α)
  organizations : List (PlacedOrganization α)
  method : Method
  statistics : Option Statistics

/-- The names of the organizations that have no position, in order. -/
def Layout.unplaced {α : Type} (l : Layout α) : List String :=
  (l.organizations.filter fun o => o.position.isNone).map fun o => o.organization.name

/-! ### Decoding -/

/-- Why a result cannot be decoded. -/
inductive DecodeError where
  /-- The formula has no model. -/
  | unsatisfiable
  /-- The result is not one of the encoding, or the encoding not one of what is decoded: a group of
  selectors, the value of a selector or a candidate is looked up that is not there. -/
  | missingGroup
deriving DecidableEq, Repr

/-- The message of an error. -/
def DecodeError.message : DecodeError → String
  | .unsatisfiable => "Cannot decode an unsatisfiable result"
  | .missingGroup => "list index out of range"

namespace Decoding

/-- What a look-up yields, if it is there. -/
def found {β : Type} : Option β → Except DecodeError β
  | some x => .ok x
  | none => .error .missingGroup

/-- The number of the first selector of a group that is true, counted from `k` on. The selectors before
it are looked up, and those after it are not. -/
def firstTrue (model : Array Bool) (k : Nat) : List Nat → Except DecodeError (Option Nat)
  | [] => return none
  | var :: rest => do
    let value ← found (Result.valueIn? model var)
    if value then return some k else firstTrue model (k + 1) rest

variable {β γ δ : Type}

/-- The candidate of an entity whose selector is true. -/
def chosen (model : Array Bool) (groups : List (List Nat)) (candidates : List (List β)) (i : Nat) :
    Except DecodeError (Option β) := do
  let group ← found groups[i]?
  match ← firstTrue model 0 group with
  | none => return none
  | some k =>
    let own ← found candidates[i]?
    return some (← found own[k]?)

/-- All entities at the candidates whose selectors are true. -/
def placeAll (model : Array Bool) (groups : List (List Nat)) (candidates : List (List β))
    (place : γ → Option β → δ) (entities : List γ) : Except DecodeError (List δ) :=
  entities.zipIdx.mapM fun (entity, i) => (chosen model groups candidates i).map (place entity)

end Decoding

variable {α : Type}

/-- The position of the chosen candidate. -/
def DotCandidate.position (c : DotCandidate α) : Position α := ⟨c.x, c.y, some c.score⟩

open Decoding in
/-- The layout that a result of deciding an encoding stands for. -/
def decode (r : Result) (e : Encoding) (organizations : List Organization) (circles : List (Circle α))
    (dots : List (List (DotCandidate α))) (labels : List (List (LabelCandidate α))) :
    Except DecodeError (Layout α) :=
  match r.model? with
  | none => .error .unsatisfiable
  | some model => do
    let organizations ← placeAll model e.orgVars dots
      (fun o chosen => ⟨o, chosen.map DotCandidate.position⟩) organizations
    let circles ← placeAll model e.labelVars labels PlacedCircle.mk circles
    return { circles, organizations, method := .sat, statistics := none }

/-! ### The fallback -/

section
variable [Scalar α]

/-- The mean of the centres of an organization's circles. -/
def meanPosition? (circles : List (Circle α)) (o : Organization) : Option (Position α) :=
  let own := ownCircles o.categories circles
  if own.isEmpty then none
  else
    let count : α := Scalar.ofNat own.length
    some ⟨Scalar.sum (own.map Circle.x) / count, Scalar.sum (own.map Circle.y) / count, none⟩

/-- The label straight above a circle. -/
def labelAbove (rules : Rules α) (c : Circle α) : LabelCandidate α :=
  { x := c.x
    y := c.y - c.r - rules.fallbackLabelOffset
    angle := Scalar.ofNat 270 }

/-- The layout that is used when candidates cannot be chosen without overlap. -/
def fallback (rules : Rules α) (organizations : List Organization) (circles : List (Circle α)) :
    Layout α :=
  { circles := circles.map fun c => ⟨c, some (labelAbove rules c)⟩
    organizations := organizations.map fun o => ⟨o, meanPosition? circles o⟩
    method := .fallback
    statistics := none }

end
end VennDiagram
