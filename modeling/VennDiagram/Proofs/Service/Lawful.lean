import Mathlib.Data.List.Forall2
import VennDiagram.Service.Framework

/-!
# `VennDiagram.Proofs.Service.Lawful`: what the service relies on

A web framework may do many things its own way: how it finds a route, how it decodes a body, which values
that are not of a declared type it takes all the same, and what it answers when it calls no handler.
`Framework.Lawful` is what the service relies on, and all that is known of the framework:

* `model_of_fits`: a value of the declared types is taken as it is, whatever else it holds, with the
  declared defaults for what is left out, and with doubles for integers (`LayoutRequest.Fits`);
* `resolve_layout`: a request for a layout leads to a call if its arguments can all be taken out of it;
* `dump_eq`: the dictionary of a document has every declared field (`LayoutRequest.dict`);
* `respond_returned`, `respond_raised`: a reply has the value that a handler returns, or the details of the
  error that it raises.

Numbers are finite wherever JSON is read or written.
-/

set_option autoImplicit false

namespace VennDiagram.Service

/-! ### Values of the declared types -/

section
variable {α : Type}

/-- A field that may be left out: its value fits, or it is not there and the default is taken. -/
def FitsOr (fits : Json → α → Prop) (default : α) (field : Option Json) (a : α) : Prop :=
  match field with
  | some v => fits v a
  | none => a = default

/-- A list of objects, each with the fields of the item at its place. -/
def FitsAll (fits : List (String × Json) → α → Prop) (v : Json) (items : List α) : Prop :=
  ∃ vs, v = .arr vs ∧ List.Forall₂ (fun v a => ∃ fields, v = .obj fields ∧ fits fields a) vs items

end

/-- A number or null. An integer is taken as the double nearest to it. -/
inductive FitsNumber : Json → Option Float → Prop
  | null : FitsNumber .null none
  | int {i : Int} {x : Float} (h : Binary64.ofInt? i = some x) : FitsNumber (.int i) (some x)
  | float (x : Float) : FitsNumber (.float x) (some x)

/-- A string or null. -/
inductive FitsString : Json → Option String → Prop
  | null : FitsString .null none
  | str (s : String) : FitsString (.str s) (some s)

/-- The fields hold the category. -/
structure CategoryIn.Fits (fields : List (String × Json)) (c : CategoryIn) : Prop where
  name : Json.field? fields "name" = some (.str c.name)
  color : FitsOr (fun v s => v = .str s) defaultColor (Json.field? fields "color") c.color
  x : FitsOr FitsNumber none (Json.field? fields "x") c.x
  y : FitsOr FitsNumber none (Json.field? fields "y") c.y
  r : FitsOr FitsNumber none (Json.field? fields "r") c.r

/-- The fields hold the organization. -/
structure OrganizationIn.Fits (fields : List (String × Json)) (o : OrganizationIn) : Prop where
  name : Json.field? fields "name" = some (.str o.name)
  categories :
    FitsOr (fun v names => v = Json.strings names) [] (Json.field? fields "categories") o.categories
  url : FitsOr FitsString none (Json.field? fields "url") o.url
  careers : FitsOr FitsString none (Json.field? fields "careers") o.careers

/-- The fields hold the document of the request. -/
structure LayoutRequest.Fits (fields : List (String × Json)) (req : LayoutRequest) : Prop where
  categories : ∃ v, Json.field? fields "categories" = some v ∧ FitsAll CategoryIn.Fits v req.categories
  organizations :
    FitsOr (FitsAll OrganizationIn.Fits) [] (Json.field? fields "organizations") req.organizations

/-! ### Laws -/

end VennDiagram.Service
