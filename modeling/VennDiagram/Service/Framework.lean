import VennDiagram.Document.Reader

/-!
# `VennDiagram.Service.Framework`: what the service leaves to a web framework

The service declares its routes, the arguments of their handlers, and what a document in a request looks
like (`LayoutRequest`). All the rest is done by a web framework: it finds the handler that a request is for,
takes the arguments out of the request and checks them, and makes a reply of how the handler ends. A request
for which no handler can be called is answered by the framework itself.

`Framework` stands for what it does and leaves open how.
-/

set_option autoImplicit false

namespace VennDiagram.Service

/-! ### Documents in requests -/

/-- A category of a request. -/
structure CategoryIn where
  name : String
  color : String
  x : Option Float
  y : Option Float
  r : Option Float
deriving DecidableEq

/-- The colour of a category that names none. -/
def CategoryIn.defaultColor : String := "#888888"

/-- An organization of a request. -/
structure OrganizationIn where
  name : String
  categories : List String
  url : Option String
  careers : Option String
deriving DecidableEq

/-- What the body of a request for a layout holds. -/
structure LayoutRequest where
  categories : List CategoryIn
  organizations : List OrganizationIn
deriving DecidableEq

/-- The dictionary of a category. -/
def CategoryIn.dict (c : CategoryIn) : Json :=
  .obj
    [ ("name", .str c.name), ("color", .str c.color), ("x", Json.ofOption .float c.x),
      ("y", Json.ofOption .float c.y), ("r", Json.ofOption .float c.r) ]

/-- The dictionary of an organization. -/
def OrganizationIn.dict (o : OrganizationIn) : Json :=
  .obj
    [ ("name", .str o.name), ("categories", Json.strings o.categories),
      ("url", Json.ofOption .str o.url), ("careers", Json.ofOption .str o.careers) ]

/-- The dictionary of a request: every field by its name, in the order of declaration. -/
def LayoutRequest.dict (req : LayoutRequest) : Json :=
  .obj
    [ ("categories", .arr (req.categories.map CategoryIn.dict)),
      ("organizations", .arr (req.organizations.map OrganizationIn.dict)) ]

/-! ### Routes, calls and replies -/

/-- What can be asked for. -/
inductive Route where
  | health
  | layout
deriving DecidableEq, Repr

/-- The path of a route. -/
def Route.path : Route → String
  | .health => "/api/health"
  | .layout => "/api/layout"

/-- The method of a route. -/
def Route.method : Route → String
  | .health => "GET"
  | .layout => "POST"

/-- A call of the handler of a route. -/
inductive Call where
  | health
  | layout (req : LayoutRequest) (width height : Option Float)

/-- An error that a handler does not expect. -/
inductive Crash where
  /-- The dictionary of the request is not a document. -/
  | unread (e : Document.ReadError)
  | failed (f : Failure)

/-- How a handler ends. -/
inductive Outcome where
  | returned (v : Json)
  /-- It raises an error with a status and details. -/
  | raised (status : Nat) (detail : Json)
  | crashed (c : Crash)

/-- A reply. -/
structure Reply where
  status : Nat
  body : Json

/-- What becomes of a request. -/
abbrev Answer := Except Failure Reply

/-! ### The framework -/

/-- A web framework whose requests are of type `ρ`. -/
structure Framework (ρ : Type) where
  /-- The route of a request. -/
  route : ρ → Option Route
  /-- The JSON value in the body of a request. -/
  body : ρ → Option Json
  /-- A number in the query of a request, if nothing is wrong with it. It may be left out. -/
  side : ρ → String → Option (Option Float)
  /-- The document that a JSON value is taken as. -/
  model : Json → Option LayoutRequest
  /-- The call that a request leads to, or the framework's own answer. -/
  resolve : ρ → Except Answer Call
  /-- The dictionary of a document. -/
  dump : LayoutRequest → Json
  /-- What is answered when a handler has ended. -/
  respond : Outcome → Answer

end VennDiagram.Service
