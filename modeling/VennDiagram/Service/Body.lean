import VennDiagram.Service.Framework

/-!
# `VennDiagram.Service.Body`: documents in requests

The body of a request holds a document, with types that are checked less strictly than those of a file: a
number may also be a boolean or a text that spells one. All faults of a body are found, in the order of
the fields of the document; each names its place and shows the value there.
-/

set_option autoImplicit false

namespace VennDiagram.Service

/-- What is wrong at a place of a request. -/
inductive FaultKind where
  | missing
  | notAString
  | notANumber
  | unreadableNumber
  | notAList
  | notAnObject
  | notJson
deriving DecidableEq, Repr

/-- The name of a kind of fault in replies. -/
def FaultKind.name : FaultKind → String
  | .missing => "missing"
  | .notAString => "string_type"
  | .notANumber => "float_type"
  | .unreadableNumber => "float_parsing"
  | .notAList => "list_type"
  | .notAnObject => "model_attributes_type"
  | .notJson => "json_invalid"

/-- A step to a place: a field, or the position of an item or of a character. -/
inductive Step where
  | field (name : String)
  | position (index : Nat)
deriving DecidableEq, Repr

/-- A place in a request. -/
abbrev Place := List Step

/-- Something wrong with a request. -/
structure Fault where
  kind : FaultKind
  place : Place
  /-- The value at the place, or the object that lacks a field. -/
  value : Json

/-- The JSON value of a step. -/
def Step.toJson : Step → Json
  | .field name => .str name
  | .position index => .int index

/-- The JSON object of a fault. -/
def Fault.toJson (f : Fault) : Json :=
  .obj
    [ ("type", .str f.kind.name), ("loc", .arr (f.place.map Step.toJson)), ("input", f.value) ]

/-! ### Checking -/

/-- A value, or everything that is wrong with it. -/
abbrev Checked (α : Type) := Except (List Fault) α

namespace Checked

/-- One fault. -/
def fault {α : Type} (kind : FaultKind) (place : Place) (v : Json) : Checked α :=
  .error [⟨kind, place, v⟩]

/-- Both values, or the faults of both, the first one's first. -/
def both {α β : Type} (a : Checked α) (b : Checked β) : Checked (α × β) :=
  match a, b with
  | .ok a, .ok b => .ok (a, b)
  | .ok _, .error faults => .error faults
  | .error faults, .ok _ => .error faults
  | .error first, .error second => .error (first ++ second)

/-- All values, or the faults of all. -/
def all {α : Type} : List (Checked α) → Checked (List α)
  | [] => .ok []
  | a :: rest => (both a (all rest)).map fun (a, as) => a :: as

end Checked

/-- A string. -/
def string (place : Place) : Json → Checked String
  | .str s => .ok s
  | v => .fault .notAString place v

/-- A string, or nothing for null. -/
def optionalString (place : Place) : Json → Checked (Option String)
  | .null => .ok none
  | v => (string place v).map some

/-- A number, or nothing for null. -/
def optionalNumber (place : Place) (v : Json) : Checked (Option Float) :=
  match v with
  | .null => .ok none
  | .bool b => .ok (some (if b then 1.0 else 0.0))
  | .int i =>
    match Binary64.ofInt? i with
    | some x => .ok (some x)
    | none => .fault .notANumber place v
  | .float x => .ok (some x)
  | .str s =>
    match Text.readRequestNumber? s.toList with
    | some x => .ok (some x)
    | none => .fault .unreadableNumber place v
  | _ => .fault .notANumber place v

/-- A list whose items are checked. -/
def list {α : Type} (item : Place → Json → Checked α) (place : Place) : Json → Checked (List α)
  | .arr vs => .all (vs.zipIdx.map fun (v, i) => item (place ++ [.position i]) v)
  | v => .fault .notAList place v

/-- The field of an object that must be there. -/
def required {α : Type} (check : Place → Json → Checked α) (place : Place)
    (fields : List (String × Json)) (name : String) : Checked α :=
  match Json.field? fields name with
  | some v => check (place ++ [.field name]) v
  | none => .fault .missing (place ++ [.field name]) (.obj fields)

/-- The field of an object that may be left out. -/
def optional {α : Type} (check : Place → Json → Checked α) (place : Place)
    (fields : List (String × Json)) (name : String) (absent : α) : Checked α :=
  match Json.field? fields name with
  | some v => check (place ++ [.field name]) v
  | none => .ok absent

/-- A category. -/
def category (place : Place) : Json → Checked CategoryIn
  | .obj fs =>
    let name := required string place fs "name"
    let color := optional string place fs "color" CategoryIn.defaultColor
    let x := optional optionalNumber place fs "x" none
    let y := optional optionalNumber place fs "y" none
    let r := optional optionalNumber place fs "r" none
    (name.both (color.both (x.both (y.both r)))).map fun (name, color, x, y, r) =>
      { name, color, x, y, r }
  | v => .fault .notAnObject place v

/-- An organization. -/
def organization (place : Place) : Json → Checked OrganizationIn
  | .obj fs =>
    let name := required string place fs "name"
    let categories := optional (list string) place fs "categories" []
    let url := optional optionalString place fs "url" none
    let careers := optional optionalString place fs "careers" none
    (name.both (categories.both (url.both careers))).map fun (name, categories, url, careers) =>
      { name, categories, url, careers }
  | v => .fault .notAnObject place v

/-- The document of a request for a layout. -/
def layoutRequest (place : Place) : Json → Checked LayoutRequest
  | .obj fs =>
    let categories := required (list category) place fs "categories"
    let organizations := optional (list organization) place fs "organizations" []
    (categories.both organizations).map fun (categories, organizations) =>
      { categories, organizations }
  | v => .fault .notAnObject place v

end VennDiagram.Service
