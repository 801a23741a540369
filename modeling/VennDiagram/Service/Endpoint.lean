import VennDiagram.Document.Defect
import VennDiagram.Placement.Record
import VennDiagram.Placement.Run
import VennDiagram.Rules.Override
import VennDiagram.Service.Framework

/-!
# `VennDiagram.Service.Endpoint`: layouts on request

The service answers requests one after the other: whether it is well, and what the layout of a document
is. It takes its rules from the environment when they are first needed, and keeps the first ones that can
be loaded for as long as it lives. Neither a request that is turned down before its rules are needed nor
rules that cannot be loaded change what it keeps.

The document of a request is read from its dictionary like one from a file, and laid out like it. Which
requests lead to a call of a handler is for the framework to say.
-/

set_option autoImplicit false

namespace VennDiagram.Service

/-- What the service finds around it when a request comes. -/
structure Environment where
  /-- The path of the overrides of the rules, if there are any. -/
  rulesPath : Option String
  content : String → Except Files.Trouble (List UInt8)
  /-- The seconds a search is reported to take. -/
  elapsed : Float

/-- What the service keeps between requests. -/
structure State where
  rules : Option (Rules Float)

/-- Nothing is kept before the first request. -/
def State.initial : State := ⟨none⟩

/-- What is to be laid out. -/
structure Order where
  width : Option Float
  height : Option Float
  document : Document Float
deriving DecidableEq

/-! ### Handlers -/

/-- The service is well. -/
def health : Outcome := .returned (.obj [("status", .str "ok")])

/-- A document with defects is not laid out. -/
def refuseDefects (defects : List Defect) : Outcome :=
  .raised 422 (Json.strings (defects.map Defect.message))

/-- The layout of a document. -/
def layOut (env : Environment) (rules : Rules Float) (o : Order) : Outcome :=
  match optimize rules o.document o.width o.height env.elapsed with
  | .ok l => .returned l.toJson
  | .error e => .crashed (.failed e.failure)

section
variable [Json.Limits]

/-- The rules that are in effect: the ones that are kept, or else those of the environment, unless they
cannot be loaded. -/
def rulesInEffect (env : Environment) (state : State) :
    Except (Json.FileError Rules.OverrideError) (Rules Float) :=
  match state.rules, nonempty? env.rulesPath with
  -- Rules that are kept are not read again, whatever has become of their file.
  | some rules, _ => .ok rules
  | none, none => .ok .standard
  | none, some path => Rules.load .standard (env.content (Files.plain path))

/-- Without rules nothing is laid out. -/
def refuseRules (env : Environment) (e : Json.FileError Rules.OverrideError) : Outcome :=
  match Rules.report (Files.plain (env.rulesPath.getD "")) e with
  | .ok message => .raised 500 (.str ("Layout rules unavailable: " ++ message))
  | .error f => .crashed (.failed f)

/-- How a request for the layout of the document in a dictionary ends, and what is kept after it. -/
def layout (env : Environment) (state : State) (dict : Json) (width height : Option Float) :
    Outcome × State :=
  match Document.ofJson dict with
  | .error e => (.crashed (.unread e), state)
  | .ok d =>
    match d.defects with
    | [] =>
      match rulesInEffect env state with
      -- Only here are rules kept: after they were loaded for a document without defects.
      | .ok rules => (layOut env rules { width, height, document := d }, ⟨some rules⟩)
      | .error e => (refuseRules env e, state)
    | defects => (refuseDefects defects, state)

/-! ### Requests -/

namespace Framework

variable {ρ : Type} (fw : Framework ρ)

/-- How a call ends, and what is kept after it. -/
def call (env : Environment) (state : State) : Call → Outcome × State
  | .health => (Service.health, state)
  | .layout req width height => Service.layout env state (fw.dump req) width height

/-- The answer to a request, and what is kept after it. -/
def handle (env : Environment) (state : State) (r : ρ) : Answer × State :=
  match fw.resolve r with
  | .error answer => (answer, state)
  | .ok call =>
    let (outcome, state) := fw.call env state call
    (fw.respond outcome, state)

/-- The answers to requests, each with the environment it comes in. -/
def run (state : State) : List (Environment × ρ) → List Answer
  | [] => []
  | (env, r) :: rest =>
    let (answer, state) := fw.handle env state r
    answer :: run state rest

end Framework

end

end VennDiagram.Service
