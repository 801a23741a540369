import VennDiagram.Json.Bytes
import VennDiagram.Service.Body
import VennDiagram.Service.Endpoint
import VennDiagram.Service.Query
import VennDiagram.Text.Capital

/-!
# `VennDiagram.Service.Basic`: the service on the web

`web` is a web framework for requests that have a method, a target and a body. It finds the route by the path
of the target and takes the sides of the canvas from its query. A request that leads nowhere, or holds
something else than a handler takes, is turned down with all that is wrong with it, as a client sees it that
follows redirections. `run` is the service with this framework.
-/

set_option autoImplicit false

namespace VennDiagram.Service

/-- A request. -/
structure Request where
  method : String
  target : String
  body : List UInt8
deriving DecidableEq, Repr

/-! ### Replies -/

/-- A reply that something went wrong, with the details. -/
def turnDown (status : Nat) (detail : Json) : Reply := ⟨status, .obj [("detail", detail)]⟩

/-- The reply to a request with faults. -/
def turnDownFaults (faults : List Fault) : Reply := turnDown 422 (.arr (faults.map Fault.toJson))

/-- A reply is sent only if JSON can express it. -/
def Reply.send (r : Reply) : Answer := if r.body.allFinite then .ok r else .error .notFinite

/-- The failure of a crash. A request whose dictionary is not a document was taken for one all the same. -/
def Crash.failure : Crash → Failure
  | .unread _ => .misfit
  | .failed f => f

/-- What is answered when a handler has ended. -/
def respond : Outcome → Answer
  | .returned v => (Reply.mk 200 v).send
  | .raised status detail => (turnDown status detail).send
  | .crashed c => .error c.failure

/-! ### Requests -/

/-- The route of a path. Slashes at its end do not count. -/
def Route.ofPath? (path : String) : Option Route :=
  let plain := String.ofList (path.toList.reverse.dropWhile (· = '/')).reverse
  [Route.health, Route.layout].find? (·.path == plain)

/-- The route of a request, or the reply to one that leads nowhere. -/
def findRoute (r : Request) : Except Reply Route :=
  match Route.ofPath? (Target.ofString r.target).path with
  | none => .error (turnDown 404 (.str "Not Found"))
  | some route =>
    if Text.capitalized r.method = route.method then .ok route
    else .error (turnDown 405 (.str "Method Not Allowed"))

/-- A number in the query. -/
def queryNumber (t : Target) (name : String) : Checked (Option Float) :=
  match t.value? name with
  | none => .ok none
  | some s =>
    match Text.readRequestNumber? s.toList with
    | some x => .ok (some x)
    | none => .fault .unreadableNumber [.field "query", .field name] (.str s)

/-- The place of the body of a request. -/
def bodyPlace : Place := [.field "body"]

/-- The JSON value in a body, which must not be empty, or the reply to a body that is not even JSON. -/
def readBody [Json.Limits] (body : List UInt8) : Except Reply (Checked Json) :=
  if body.isEmpty then .ok (.fault .missing bodyPlace .null)
  else
    match Json.readBytes body with
    | .ok v => .ok (.ok v)
    | .error (.unreadable (.malformed e)) =>
      .error (turnDownFaults [⟨.notJson, bodyPlace ++ [.position e.offset], .obj []⟩])
    | .error _ => .error (turnDown 400 (.str "There was an error parsing the body"))

/-- The call of the handler of layouts, or the reply to a request that is not in order. Faults of the query
come before those of the body. -/
def readCall [Json.Limits] (r : Request) : Except Reply Call := do
  let v ← readBody r.body
  let t := Target.ofString r.target
  let width := queryNumber t "width"
  let height := queryNumber t "height"
  -- All faults are collected before any of them is reported.
  match width.both (height.both (v.bind (layoutRequest bodyPlace))) with
  | .ok (width, height, req) => .ok (.layout req width height)
  | .error faults => .error (turnDownFaults faults)

/-- The call that a request leads to, or the reply to one that leads to none. -/
def findCall [Json.Limits] (r : Request) : Except Reply Call := do
  match ← findRoute r with
  | .health => return .health
  | .layout => readCall r

/-! ### The service -/

section
variable [Json.Limits]

/-- The framework of the service. -/
def web : Framework Request where
  route r := (findRoute r).toOption
  body r := (Json.readBytes r.body).toOption
  side r name := (queryNumber (Target.ofString r.target) name).toOption
  model v := (layoutRequest bodyPlace v).toOption
  resolve r := (findCall r).mapError Reply.send
  dump := LayoutRequest.dict
  respond := respond

/-- The answers to requests, each with the environment it comes in. -/
def run (state : State) (events : List (Environment × Request)) : List Answer := web.run state events

end

end VennDiagram.Service
