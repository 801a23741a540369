import VennDiagram.Json.Writer
import VennDiagram.Placement.Layout

/-!
# `VennDiagram.Placement.Record`: layouts as JSON

A layout is kept as a JSON object. A record has the fields of that object, with values that are not
checked: reading a record asks only that the fields are there and that lists are lists, and writes back
what it read. A score is left out if it is null, a link if it is void. `Layout.toRecord` gives the record
of a layout.
-/

set_option autoImplicit false

namespace VennDiagram

/-- The fields of a circle and its label. -/
structure CircleRecord where
  index : Json
  name : Json
  color : Json
  x : Json
  y : Json
  r : Json
  labelX : Json
  labelY : Json
  labelAngle : Json

/-- The fields of an organization. -/
structure OrganizationRecord where
  name : Json
  categories : List Json
  x : Json
  y : Json
  score : Json
  url : Json
  careers : Json

/-- The fields of a layout. -/
structure LayoutRecord where
  circles : List CircleRecord
  organizations : List OrganizationRecord
  method : Json
  statistics : List (String × Json)

/-- Why a JSON value is not the record of a layout. -/
inductive RecordError where
  | missing (name : String)
  | wrongType
  /-- A member of the statistics that is not a pair. -/
  | notAPair (position length : Nat)
deriving DecidableEq, Repr

/-- The message of an error. -/
def RecordError.message : RecordError → String
  | .missing name => Text.quoted name
  | .wrongType => ""
  | .notAPair position length =>
    "dictionary update sequence element #" ++ toString position ++ " has length " ++ toString length ++
      "; 2 is required"

/-! ### Writing -/

/-- The JSON object of a circle. -/
def CircleRecord.toJson (c : CircleRecord) : Json :=
  .obj
    [ ("index", c.index), ("name", c.name), ("color", c.color), ("x", c.x), ("y", c.y), ("r", c.r),
      ("label_x", c.labelX), ("label_y", c.labelY), ("label_angle", c.labelAngle) ]

/-- A field, unless its value is null. -/
def presentField (name : String) (v : Json) : List (String × Json) :=
  match v with
  | .null => []
  | v => [(name, v)]

/-- A field, unless its value is void. -/
def solidField (name : String) (v : Json) : List (String × Json) :=
  if v.isVoid then [] else [(name, v)]

/-- The JSON object of an organization. -/
def OrganizationRecord.toJson (o : OrganizationRecord) : Json :=
  .obj <|
    [("name", o.name), ("categories", .arr o.categories), ("x", o.x), ("y", o.y)] ++
    presentField "score" o.score ++ solidField "url" o.url ++ solidField "careers" o.careers

/-- The JSON object of a layout. -/
def LayoutRecord.toJson (l : LayoutRecord) : Json :=
  .obj
    [ ("method", l.method), ("circles", .arr (l.circles.map CircleRecord.toJson)),
      ("organizations", .arr (l.organizations.map OrganizationRecord.toJson)),
      ("stats", .obj l.statistics) ]

/-- Both coordinates are there. -/
def OrganizationRecord.placed (o : OrganizationRecord) : Bool :=
  match o.x, o.y with
  | .null, _ => false
  | _, .null => false
  | _, _ => true

/-- The names of the organizations that are not placed, in order. -/
def LayoutRecord.unplaced (l : LayoutRecord) : List Json :=
  (l.organizations.filter fun o => !o.placed).map OrganizationRecord.name

/-! ### Reading -/

namespace Record

/-- The value of a field that must be there. -/
def required (v : Json) (name : String) : Except RecordError Json :=
  match v with
  | .obj fields =>
    match Json.field? fields name with
    | some v => .ok v
    | none => .error (.missing name)
  | _ => .error .wrongType

/-- The value of a field, or null. -/
def optional (v : Json) (name : String) : Json :=
  match v with
  | .obj fields => (Json.field? fields name).getD .null
  | _ => .null

/-- The members of a value. -/
def members (v : Json) : Except RecordError (List Json) :=
  match v.members? with
  | some vs => .ok vs
  | none => .error .wrongType

/-- The record of a circle. -/
def circle (v : Json) : Except RecordError CircleRecord := do
  let index ← required v "index"
  let name ← required v "name"
  let color ← required v "color"
  let x ← required v "x"
  let y ← required v "y"
  let r ← required v "r"
  return {
    index, name, color, x, y, r
    labelX := optional v "label_x"
    labelY := optional v "label_y"
    labelAngle := optional v "label_angle" }

/-- The record of an organization. -/
def organization (v : Json) : Except RecordError OrganizationRecord := do
  let name ← required v "name"
  let categories ← members (← required v "categories")
  return {
    name, categories
    x := optional v "x"
    y := optional v "y"
    score := optional v "score"
    url := optional v "url"
    careers := optional v "careers" }

/-- What a name of a statistic stands for. A truth value stands for the number one or zero, and numbers
are the same if they have the same value, however they are spelled. -/
inductive Identity where
  | null
  | whole (i : Int)
  | number (parts : Binary64.Parts)
  | text (s : String)
deriving DecidableEq, Repr

/-- What a value without parts stands for as a name. -/
def Identity.of? : Json → Option Identity
  | .null => some .null
  | .bool b => some (.whole (if b then 1 else 0))
  | .int i => some (.whole i)
  | .float x =>
    some <|
      match Binary64.toInt? x with
      | some i => .whole i
      | none => .number (Binary64.parts x)
  | .str s => some (.text s)
  | .arr _ => none
  | .obj _ => none

/-- A statistic: what its name stands for, the name as it was first spelled, and the value. -/
structure Statistic where
  identity : Identity
  name : Json
  value : Json

/-- How a name is written as the name of a field. -/
def spelling : Json → String
  | .str s => s
  | v => v.writeScalar

/-- The statistic of a pair of a name and a value. -/
def pair (v : Json) (position : Nat) : Except RecordError Statistic := do
  match ← members v with
  | [name, value] =>
    match Identity.of? name with
    | some identity => .ok { identity, name, value }
    | none => .error .wrongType
  | vs => .error (.notAPair position vs.length)

/-- Statistics with one more. If there is one of the same name already, that one takes the value. -/
def put (done : List Statistic) (s : Statistic) : List Statistic :=
  if done.any (·.identity = s.identity) then
    done.map fun d => if d.identity = s.identity then { d with value := s.value } else d
  else done ++ [s]

/-- The fields of statistics: an object, or a list of pairs. -/
def statistics (v : Json) : Except RecordError (List (String × Json)) :=
  match v with
  | .obj fields => .ok fields
  | _ => do
    let vs ← members v
    let pairs ← vs.zipIdx.mapM fun (v, position) => pair v position
    return (pairs.foldl put []).map fun s => (spelling s.name, s.value)

end Record

/-- The record in a JSON value. -/
def LayoutRecord.ofJson (v : Json) : Except RecordError LayoutRecord := do
  let circles ← (← Record.members (← Record.required v "circles")).mapM Record.circle
  let organizations ←
    (← Record.members (← Record.required v "organizations")).mapM Record.organization
  let field (name : String) (absent : Json) : Json :=
    match v with
    | .obj fields => (Json.field? fields name).getD absent
    | _ => absent
  let statistics ← Record.statistics (field "stats" (.obj []))
  return { circles, organizations, method := field "method" (.str "sat"), statistics }

/-! ### Layouts -/

/-- The record of a circle with its label. -/
def PlacedCircle.toRecord (c : PlacedCircle Float) : CircleRecord :=
  { index := .int c.circle.index
    name := .str c.circle.name
    color := .str c.circle.color
    x := .float c.circle.x
    y := .float c.circle.y
    r := .float c.circle.r
    labelX := Json.ofOption (fun l => .float l.x) c.label
    labelY := Json.ofOption (fun l => .float l.y) c.label
    labelAngle := Json.ofOption (fun l => .float l.angle) c.label }

/-- The record of an organization with its dot. -/
def PlacedOrganization.toRecord (o : PlacedOrganization Float) : OrganizationRecord :=
  { name := .str o.organization.name
    categories := o.organization.categories.map .str
    x := Json.ofOption (fun p => .float p.x) o.position
    y := Json.ofOption (fun p => .float p.y) o.position
    score := Json.ofOption .float (o.position.bind Position.score)
    url := Json.ofOption .str o.organization.url
    careers := Json.ofOption .str o.organization.careers }

/-- The fields of the numbers of a run. -/
def Statistics.fields (s : Statistics) : List (String × Json) :=
  [ ("variables", .int s.numVars), ("clauses", .int s.numClauses), ("decisions", .int s.decisions),
    ("backtracks", .int s.backtracks), ("elapsed_s", .float s.elapsed),
    ("exactly_one_clauses", .int s.counts.exactlyOne),
    ("at_most_one_clauses", .int s.counts.atMostOne),
    ("org_conflict_clauses", .int s.counts.orgConflict),
    ("label_conflict_clauses", .int s.counts.labelConflict),
    ("label_circle_overlaps", .int s.counts.labelCircleOverlaps) ]

/-- The record of a layout. -/
def Layout.toRecord (l : Layout Float) : LayoutRecord :=
  { circles := l.circles.map PlacedCircle.toRecord
    organizations := l.organizations.map PlacedOrganization.toRecord
    method := .str l.method.name
    statistics := (l.statistics.map Statistics.fields).getD [] }

/-- The JSON object of a layout. -/
def Layout.toJson (l : Layout Float) : Json := l.toRecord.toJson

end VennDiagram
