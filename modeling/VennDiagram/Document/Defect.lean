import VennDiagram.Document.Basic
import VennDiagram.Number.Scalar
import VennDiagram.Text.Blank

/-!
# `VennDiagram.Document.Defect`: what is wrong with a document

A document is checked as a whole after it was read. `Document.defects` lists everything that is wrong,
in a fixed order: names of categories, their geometry, and then each organization with its name and the
categories it lists. A document without defects can be laid out with nothing left to guess.
-/

set_option autoImplicit false

namespace VennDiagram

/-- Something wrong with a document. -/
inductive Defect where
  | noCategory
  | blankCategory (index : Nat)
  | repeatedCategory (name : String)
  | partialGeometry (name : String)
  | radiusNotPositive (name : String)
  | mixedGeometry (given total : Nat)
  | blankOrganization (index : Nat)
  | repeatedOrganization (name : String)
  | unknownCategory (organization category : String)
deriving DecidableEq, Repr

/-- The message of a defect. -/
def Defect.message : Defect → String
  | .noCategory => "Document must define at least one category"
  | .blankCategory i => "Category " ++ toString i ++ ": name must not be empty"
  | .repeatedCategory name => "Duplicate category name '" ++ name ++ "'"
  | .partialGeometry name => "Category '" ++ name ++ "': circle geometry needs all of x, y, r"
  | .radiusNotPositive name => "Category '" ++ name ++ "': r must be > 0"
  | .mixedGeometry given total =>
    "Only " ++ toString given ++ " of " ++ toString total ++
      " categories carry circle geometry (either all or none must)"
  | .blankOrganization i => "Organization " ++ toString i ++ ": name must not be empty"
  | .repeatedOrganization name => "Duplicate organization name '" ++ name ++ "'"
  | .unknownCategory organization category =>
    "Organization '" ++ organization ++ "': unknown category '" ++ category ++ "'"

namespace Document

variable {α : Type}

/-- The name has no character that shows. -/
def isBlankName (name : String) : Bool := Text.allBlank name.toList

/-- Defects in the names of categories from the position `index` on, after the names `seen`. A blank
name is not seen. -/
def categoryNameDefects (index : Nat) (seen : List String) : List String → List Defect
  | [] => []
  | name :: rest =>
    if isBlankName name then .blankCategory index :: categoryNameDefects (index + 1) seen rest
    else
      (if seen.contains name then [.repeatedCategory name] else []) ++
        categoryNameDefects (index + 1) (name :: seen) rest

/-- The defect in the name of the organization at a position, after the names `seen`. -/
def organizationNameDefects (index : Nat) (seen : List String) (name : String) : List Defect :=
  if isBlankName name then [.blankOrganization index]
  else if seen.contains name then [.repeatedOrganization name]
  else []

/-- Defects of organizations from the position `index` on, after the names `seen`. Every name is
seen. -/
def organizationDefects (known : List String) (index : Nat) (seen : List String) :
    List Organization → List Defect
  | [] => []
  | o :: rest =>
    -- An unknown category is named as often as it is listed.
    organizationNameDefects index seen o.name ++
      ((o.categories.filter fun c => !known.contains c).map (.unknownCategory o.name)) ++
      organizationDefects known (index + 1) (o.name :: seen) rest

/-- The names that organizations may list. -/
def knownNames (d : Document α) : List String :=
  (d.categories.map Category.name).filter fun name => !isBlankName name

section
variable [Scalar α]

/-- Defects in the circle of a category. -/
def geometryDefects (c : Category α) : List Defect :=
  (if c.hasPartialGeometry then [.partialGeometry c.name] else []) ++
    match c.r with
    | some r => if r ≤ Scalar.ofNat 0 then [.radiusNotPositive c.name] else []
    | none => []

/-- The defect of a document in which some categories come with their circle and some do not. -/
def mixedGeometryDefects (d : Document α) : List Defect :=
  let given := d.categories.countP Category.hasGeometry
  if 0 < given ∧ given < d.categories.length then [.mixedGeometry given d.categories.length] else []

/-- Everything that is wrong with the document. -/
def defects (d : Document α) : List Defect :=
  (if d.categories.isEmpty then [.noCategory] else []) ++
    categoryNameDefects 0 [] (d.categories.map Category.name) ++
    d.categories.flatMap geometryDefects ++
    mixedGeometryDefects d ++
    organizationDefects (knownNames d) 0 [] d.organizations

end

end Document
end VennDiagram
