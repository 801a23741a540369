/-!
# `VennDiagram.Json.Basic`: JSON values

A number is an integer or a double, as it was spelled: `5` and `5.0` are different values. An object is
a list of fields in order. `Json.object` builds one from fields that may repeat a name: the name keeps
its first place and takes its last value, so the names of an object that was read are distinct.

How deep values may lie within each other depends on the stack of the program. `Json.Limits` stands for
it wherever a value is read or shown, and nothing is known about it. The instance is what the program
runs with.
-/

set_option autoImplicit false

namespace VennDiagram

/-- A JSON value. -/
inductive Json where
  | null
  | bool (b : Bool)
  | int (i : Int)
  | float (x : Float)
  | str (s : String)
  | arr (items : List Json)
  | obj (fields : List (String × Json))
deriving Inhabited, Repr

namespace Json

/-- What the stack of the program allows. -/
class Limits where
  /-- How many arrays and objects may lie within each other. -/
  depth : Nat

/-- The depth that is reached with a stack of the usual size, where no other is known. -/
instance (priority := low) : Limits := ⟨990⟩

/-- Fields with one more, which replaces a field of its name in place or else goes to the end. -/
def putField (fields : List (String × Json)) (name : String) (v : Json) : List (String × Json) :=
  if fields.any (·.1 == name) then
    fields.map fun field => if field.1 == name then (name, v) else field
  else
    fields ++ [(name, v)]

/-- The object of the given fields, in which a later field of the same name wins. -/
def object (fields : List (String × Json)) : Json :=
  .obj (fields.foldl (fun done (name, v) => putField done name v) [])

/-- The value of a field. -/
def field? (fields : List (String × Json)) (name : String) : Option Json :=
  fields.lookup name

/-- An array of strings. -/
def strings (ss : List String) : Json := .arr (ss.map .str)

/-- The members of a value: the items of an array, the characters of a string, the names of an object.
Other values have none. -/
def members? : Json → Option (List Json)
  | .arr items => some items
  | .str s => some (s.toList.map fun c => .str (String.ofList [c]))
  | .obj fields => some (fields.map fun (name, _) => .str name)
  | _ => none

/-- A value or null. -/
def ofOption {α : Type} (f : α → Json) : Option α → Json
  | some a => f a
  | none => .null

/-- The value counts as absent where something optional is asked for: null, false, zero, or empty. -/
def isVoid : Json → Bool
  | .null => true
  | .bool b => !b
  | .int i => i == 0
  | .float x => x == 0.0
  | .str s => s.isEmpty
  | .arr items => items.isEmpty
  | .obj fields => fields.isEmpty

mutual

/-- Every double in the value is finite. -/
def allFinite : Json → Bool
  | .float x => x.isFinite
  | .arr items => allFiniteItems items
  | .obj fields => allFiniteFields fields
  | _ => true

/-- Every double in the items is finite. -/
def allFiniteItems : List Json → Bool
  | [] => true
  | v :: rest => allFinite v && allFiniteItems rest

/-- Every double in the fields is finite. -/
def allFiniteFields : List (String × Json) → Bool
  | [] => true
  | (_, v) :: rest => allFinite v && allFiniteFields rest

end

end Json
end VennDiagram
