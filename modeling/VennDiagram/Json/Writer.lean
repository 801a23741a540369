import VennDiagram.Failure
import VennDiagram.Json.Basic
import VennDiagram.Number.Written
import VennDiagram.Text.Numeral
import VennDiagram.Text.Quoted

/-!
# `VennDiagram.Json.Writer`: writing JSON text, and values in messages

`pretty` writes a value over several lines, two blanks deeper for each level; empty arrays and objects
stay on one line. All text is ASCII: other characters are escaped as UTF-16 units. `display` is the form
of a value in error messages, on one line, with texts between quotes as `Text.quoted` has them. A value
with an integer that is too long, or with containers that lie too deep within each other, cannot be shown.
-/

set_option autoImplicit false

namespace VennDiagram.Json

/-- A character beyond the Basic Multilingual Plane takes two units. -/
def unitEscapes (n : Nat) : List Char :=
  let unit (u : Nat) := '\\' :: 'u' :: Text.hex 4 u
  if n < 0x10000 then unit n
  else
    let m := n - 0x10000
    unit (0xD800 + m / 0x400) ++ unit (0xDC00 + m % 0x400)

/-- One character of a string. -/
def escapeChar (c : Char) : List Char :=
  if c = '"' then ['\\', '"']
  else if c = '\\' then ['\\', '\\']
  else if c = '\n' then ['\\', 'n']
  else if c = '\r' then ['\\', 'r']
  else if c = '\t' then ['\\', 't']
  else if c = '\x0c' then ['\\', 'f']
  else if c = '\x08' then ['\\', 'b']
  else if 0x20 ≤ c.toNat ∧ c.toNat ≤ 0x7E then [c]
  else unitEscapes c.toNat

/-- A string between quotes, in ASCII. -/
def writeString (s : String) : String :=
  String.ofList ('"' :: s.toList.flatMap escapeChar ++ ['"'])

/-- A value without parts. -/
def writeScalar : Json → String
  | .null => "null"
  | .bool b => if b then "true" else "false"
  | .int i => toString i
  | .float x => NumberStyle.json.write x
  | .str s => writeString s
  | .arr _ => "[]"
  | .obj _ => "\x7b\x7d"

/-- A line end and the blanks that start the next line. -/
def newline (depth : Nat) : String :=
  "\n" ++ String.ofList (List.replicate (2 * depth) ' ')

mutual

/-- A value over several lines, at a depth of nesting, written after the text `out`. -/
def prettyAfter (out : String) (depth : Nat) : Json → String
  | .arr (v :: rest) =>
    let out := prettyAfter (out ++ "[" ++ newline (depth + 1)) (depth + 1) v
    prettyItems out (depth + 1) rest ++ newline depth ++ "]"
  | .obj ((name, v) :: rest) =>
    let out := out ++ "\x7b" ++ newline (depth + 1) ++ writeString name ++ ": "
    prettyFields (prettyAfter out (depth + 1) v) (depth + 1) rest ++ newline depth ++ "\x7d"
  | v => out ++ writeScalar v

/-- Further items, each after a comma. -/
def prettyItems (out : String) (depth : Nat) : List Json → String
  | [] => out
  | v :: rest => prettyItems (prettyAfter (out ++ "," ++ newline depth) depth v) depth rest

/-- Further fields, each after a comma. -/
def prettyFields (out : String) (depth : Nat) : List (String × Json) → String
  | [] => out
  | (name, v) :: rest =>
    let out := out ++ "," ++ newline depth ++ writeString name ++ ": "
    prettyFields (prettyAfter out depth v) depth rest

end

/-- A value over several lines. -/
def pretty (v : Json) : String := prettyAfter "" 0 v

mutual

/-- A value on one line, without blanks, written after the text `out`. -/
def compactAfter (out : String) : Json → String
  | .arr (v :: rest) => compactItems (compactAfter (out ++ "[") v) rest ++ "]"
  | .obj ((name, v) :: rest) =>
    compactFields (compactAfter (out ++ "\x7b" ++ writeString name ++ ":") v) rest ++ "\x7d"
  | v => out ++ writeScalar v

/-- Further items, each after a comma. -/
def compactItems (out : String) : List Json → String
  | [] => out
  | v :: rest => compactItems (compactAfter (out ++ ",") v) rest

/-- Further fields, each after a comma. -/
def compactFields (out : String) : List (String × Json) → String
  | [] => out
  | (name, v) :: rest =>
    compactFields (compactAfter (out ++ "," ++ writeString name ++ ":") v) rest

end

/-- A value on one line, without blanks. -/
def compact (v : Json) : String := compactAfter "" v

mutual

/-- A value as error messages show it, from the left. At most `depth` containers may lie within each other
from here. -/
def displayWithin : Json → (depth : Nat) → Except Failure String
  | .null, _ => .ok "None"
  | .bool b, _ => .ok (if b then "True" else "False")
  | .int i, _ =>
    match Text.writeInt? i with
    | some digits => .ok digits
    | none => .error (.tooManyDigits none)
  | .float x, _ => .ok (NumberStyle.plain.write x)
  | .str s, _ => .ok (Text.quoted s)
  -- The limit is met before anything inside is shown.
  | .arr _, 0 => .error (.tooDeep none)
  | .arr [], _ + 1 => .ok "[]"
  | .arr (v :: rest), depth + 1 => do
    let first ← displayWithin v depth
    let others ← displayItems rest depth
    return "[" ++ first ++ others ++ "]"
  | .obj _, 0 => .error (.tooDeep none)
  | .obj [], _ + 1 => .ok "\x7b\x7d"
  | .obj ((name, v) :: rest), depth + 1 => do
    let first ← displayWithin v depth
    let others ← displayFields rest depth
    return "\x7b" ++ Text.quoted name ++ ": " ++ first ++ others ++ "\x7d"

/-- Further items, each after a comma. -/
def displayItems : List Json → (depth : Nat) → Except Failure String
  | [], _ => .ok ""
  | v :: rest, depth => do
    let first ← displayWithin v depth
    let others ← displayItems rest depth
    return ", " ++ first ++ others

/-- Further fields, each after a comma. -/
def displayFields : List (String × Json) → (depth : Nat) → Except Failure String
  | [], _ => .ok ""
  | (name, v) :: rest, depth => do
    let first ← displayWithin v depth
    let others ← displayFields rest depth
    return ", " ++ Text.quoted name ++ ": " ++ first ++ others

end

/-- A value as error messages show it. -/
def display [Limits] (v : Json) : Except Failure String := displayWithin v Limits.depth

end VennDiagram.Json
