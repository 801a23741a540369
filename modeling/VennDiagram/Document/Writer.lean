import VennDiagram.Document.Basic
import VennDiagram.Json.Basic

/-!
# `VennDiagram.Document.Writer`: documents as JSON

Two ways to write a document. `toJson` is brief: a circle is written only if it is complete, and a link
only if it is not empty. `toFullJson` writes every field, and null for what is not there.
-/

set_option autoImplicit false

namespace VennDiagram.Document

/-! ### The brief way -/

/-- The JSON object of a category: its circle only if it is complete. -/
def categoryToJson (c : Category Float) : Json :=
  .obj <|
    [("name", .str c.name), ("color", .str c.color)] ++
    match c.geometry? with
    | some (x, y, r) => [("x", .float x), ("y", .float y), ("r", .float r)]
    | none => []

/-- A field for a text that is there and not empty. -/
def linkField (name : String) (s : Option String) : List (String × Json) :=
  match nonempty? s with
  | some s => [(name, .str s)]
  | none => []

/-- The JSON object of an organization, without empty links. -/
def organizationToJson (o : Organization) : Json :=
  .obj <|
    [("name", .str o.name), ("categories", Json.strings o.categories)] ++
    linkField "url" o.url ++ linkField "careers" o.careers

/-- The JSON object of a document. -/
def toJson (d : Document Float) : Json :=
  .obj
    [ ("categories", .arr (d.categories.map categoryToJson)),
      ("organizations", .arr (d.organizations.map organizationToJson)) ]

/-! ### Every field -/

/-- The JSON object of a category with every field. -/
def categoryToFullJson (c : Category Float) : Json :=
  .obj
    [ ("name", .str c.name), ("color", .str c.color), ("x", Json.ofOption .float c.x),
      ("y", Json.ofOption .float c.y), ("r", Json.ofOption .float c.r) ]

/-- The JSON object of an organization with every field. -/
def organizationToFullJson (o : Organization) : Json :=
  .obj
    [ ("name", .str o.name), ("categories", Json.strings o.categories),
      ("url", Json.ofOption .str o.url), ("careers", Json.ofOption .str o.careers) ]

/-- The JSON object of a document with every field. -/
def toFullJson (d : Document Float) : Json :=
  .obj
    [ ("categories", .arr (d.categories.map categoryToFullJson)),
      ("organizations", .arr (d.organizations.map organizationToFullJson)) ]

end VennDiagram.Document
