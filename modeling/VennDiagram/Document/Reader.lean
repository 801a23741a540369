import VennDiagram.Document.Basic
import VennDiagram.Json.File
import VennDiagram.Json.Writer

/-!
# `VennDiagram.Document.Reader`: documents from JSON

`ofJson` checks the types of all fields and builds the document. Categories come before organizations,
and the first field that does not fit is the error; it names the place of the field and shows its value.
Names that refer to nothing and names that occur twice are not errors here but defects, which
`Document.defects` finds. An integer too large for a double is a failure of its own.
-/

set_option autoImplicit false

namespace VennDiagram.Document

/-- A place in a document. -/
inductive Place where
  | categories
  | category (index : Nat)
  | categoryField (index : Nat) (name : String)
  | organizations
  | organization (index : Nat)
  | organizationField (index : Nat) (name : String)
  | membership (index : Nat) (position : Nat)
deriving DecidableEq, Repr

/-- How messages name a place. -/
def Place.text : Place → String
  | .categories => "categories"
  | .category i => "categories[" ++ toString i ++ "]"
  | .categoryField i name => "categories[" ++ toString i ++ "]." ++ name
  | .organizations => "organizations"
  | .organization i => "organizations[" ++ toString i ++ "]"
  | .organizationField i name => "organizations[" ++ toString i ++ "]." ++ name
  | .membership i j => "organizations[" ++ toString i ++ "].categories[" ++ toString j ++ "]"

/-- What a place must hold. -/
inductive Kind where
  | object
  | list
  | string
  | number
deriving DecidableEq, Repr

/-- How messages name what is expected. -/
def Kind.text : Kind → String
  | .object => "an object"
  | .list => "a list"
  | .string => "a string"
  | .number => "a number"

/-- Why a JSON value is not a document. -/
inductive ReadError where
  | notAnObject
  | missing (name : String)
  | unexpected (place : Place) (kind : Kind) (v : Json)
  /-- An integer beyond the doubles. -/
  | tooLarge

/-- The message of an error, if it has one and the value that it shows can be shown. -/
def ReadError.message [Json.Limits] : ReadError → Except Failure String
  | .notAnObject => .ok "Malformed data document: expected a JSON object"
  | .missing name => .ok ("Malformed data document: missing field " ++ Text.quoted name)
  | .unexpected place kind v =>
    v.display.map fun shown => place.text ++ ": expected " ++ kind.text ++ ", got " ++ shown
  | .tooLarge => .error .tooLarge

/-- The fields of an object. -/
def fields (place : Place) : Json → Except ReadError (List (String × Json))
  | .obj fields => .ok fields
  | v => .error (.unexpected place .object v)

/-- The items of a list. -/
def items (place : Place) : Json → Except ReadError (List Json)
  | .arr items => .ok items
  | v => .error (.unexpected place .list v)

/-- A string. -/
def string (place : Place) : Json → Except ReadError String
  | .str s => .ok s
  | v => .error (.unexpected place .string v)

/-- A string, or nothing for null. -/
def optionalString (place : Place) : Json → Except ReadError (Option String)
  | .null => .ok none
  | v => (string place v).map some

/-- A number as a double, or nothing for null. -/
def optionalNumber (place : Place) : Json → Except ReadError (Option Float)
  | .null => .ok none
  | .int i =>
    match Binary64.ofInt? i with
    | some x => .ok (some x)
    | none => .error .tooLarge
  | .float x => .ok (some x)
  | v => .error (.unexpected place .number v)

/-- A field that must be there. -/
def required (fields : List (String × Json)) (name : String) : Except ReadError Json :=
  match Json.field? fields name with
  | some v => .ok v
  | none => .error (.missing name)

/-- A field, or what stands for it when it is not there. -/
def optional (fields : List (String × Json)) (name : String) (absent : Json) : Json :=
  (Json.field? fields name).getD absent

/-- The category at a position. -/
def category (v : Json) (i : Nat) : Except ReadError (Category Float) := do
  let fs ← fields (.category i) v
  let name ← string (.categoryField i "name") (← required fs "name")
  let color ← string (.categoryField i "color") (optional fs "color" (.str Category.defaultColor))
  let x ← optionalNumber (.categoryField i "x") (optional fs "x" .null)
  let y ← optionalNumber (.categoryField i "y") (optional fs "y" .null)
  let r ← optionalNumber (.categoryField i "r") (optional fs "r" .null)
  return { name, color, x, y, r }

/-- The organization at a position. -/
def organization (v : Json) (i : Nat) : Except ReadError Organization := do
  let fs ← fields (.organization i) v
  -- The list comes before the name, and its items after it.
  let members ← items (.organizationField i "categories") (optional fs "categories" (.arr []))
  let name ← string (.organizationField i "name") (← required fs "name")
  let categories ← members.zipIdx.mapM fun (m, j) => string (.membership i j) m
  let url ← optionalString (.organizationField i "url") (optional fs "url" .null)
  let careers ← optionalString (.organizationField i "careers") (optional fs "careers" .null)
  return { name, categories, url, careers }

/-- The document of a JSON value. -/
def ofJson (v : Json) : Except ReadError (Document Float) :=
  match v with
  | .obj fs => do
    let cs ← items .categories (← required fs "categories")
    let categories ← cs.zipIdx.mapM fun (c, i) => category c i
    let os ← items .organizations (optional fs "organizations" (.arr []))
    let organizations ← os.zipIdx.mapM fun (o, i) => organization o i
    return { categories, organizations }
  | _ => .error .notAnObject

section
variable [Json.Limits]

/-- The document in a file. -/
def load (content : Except Files.Trouble (List UInt8)) :
    Except (Json.FileError ReadError) (Document Float) :=
  match Json.load content with
  | .ok v => (ofJson v).mapError .unfit
  | .error e => .error e

/-- What is reported about a document in the file at a path, or the failure. -/
def report (path : String) (e : Json.FileError ReadError) : Except Failure String :=
  e.report path ReadError.message

end

end VennDiagram.Document
