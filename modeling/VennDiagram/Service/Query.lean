import VennDiagram.Text.Utf8

/-!
# `VennDiagram.Service.Query`: the target of a request

A target is a path and, after a question mark, a query: names with values, separated by ampersands. Both
are percent-encoded, and in a query a plus sign stands for a blank. The plus signs are replaced first, so
a plus sign that was percent-encoded stays one. Bytes that are no UTF-8 decode to replacement characters.

A path leads from the root of the service, whatever scheme and authority stand before it, and may take
detours: a part that is one point stays where it is, and two points lead back. It is decoded twice, when
it is taken from the target and when it is looked up.
-/

set_option autoImplicit false

namespace VennDiagram.Service

/-- The value of a hexadecimal digit. -/
def hexValue? (b : UInt8) : Option UInt8 :=
  if 0x30 ≤ b && b ≤ 0x39 then some (b - 0x30)
  else if 0x41 ≤ b && b ≤ 0x46 then some (b - 0x41 + 10)
  else if 0x61 ≤ b && b ≤ 0x66 then some (b - 0x61 + 10)
  else none

/-- Every percent sign with two hexadecimal digits becomes the byte they spell. -/
def percentDecode : List UInt8 → List UInt8
  | 0x25 :: high :: low :: rest =>
    match hexValue? high, hexValue? low with
    | some h, some l => (16 * h + l) :: percentDecode rest
    | _, _ => 0x25 :: percentDecode (high :: low :: rest)
  | b :: rest => b :: percentDecode rest
  | [] => []

/-- The text of bytes; each run of bytes that cannot be decoded becomes a replacement character. -/
def lenientText : List UInt8 → List Char
  | [] => []
  | b :: rest =>
    match Text.Utf8.decode (b :: rest) with
    | .ok cs => cs
    | .error f =>
      let before := match Text.Utf8.decode ((b :: rest).take f.offset) with
        | .ok cs => cs
        | .error _ => []
      before ++ '\uFFFD' :: lenientText (rest.drop (f.offset + f.count - 1))
termination_by bytes => bytes.length
decreasing_by simp only [List.length_cons, List.length_drop]; omega

/-- A percent-encoded text, decoded. -/
def decoded (cs : List Char) : String :=
  String.ofList (lenientText (percentDecode (String.ofList cs).toUTF8.toList))

/-- A name or value of a query, decoded. -/
def queryText (cs : List Char) : String :=
  decoded (cs.map fun c => if c = '+' then ' ' else c)

/-- The names and values of a query, in order. A name without an equals sign has the empty value. -/
def queryFields (cs : List Char) : List (String × String) :=
  ((cs.splitOn '&').filter (!·.isEmpty)).map fun field =>
    (queryText (field.takeWhile (· ≠ '=')), queryText ((field.dropWhile (· ≠ '=')).drop 1))

/-- The character may be in the name of a scheme. -/
def isSchemeChar (c : Char) : Bool := c.isAlphanum || c = '+' || c = '.' || c = '-'

/-- What follows a scheme and its colon. -/
def dropScheme (cs : List Char) : List Char :=
  match cs.head?.all (fun c => c.isAlpha || c = ':'), cs.dropWhile isSchemeChar with
  | true, ':' :: rest => rest
  | _, _ => cs

/-- What follows two slashes and an authority. -/
def dropAuthority : List Char → List Char
  | '/' :: '/' :: rest => rest.dropWhile (· ≠ '/')
  | cs => cs

/-- The parts of a path without detours. -/
def straightened (parts : List (List Char)) : List (List Char) :=
  parts.foldl
    (fun done part =>
      if part = ['.'] then done
      else if part = ['.', '.'] then done.dropLast
      else done ++ [part])
    []

/-- The path from the root of the service that a reference leads to, decoded. -/
def pathOf (cs : List Char) : String :=
  let relative := (dropAuthority (dropScheme cs)).dropWhile (· = '/')
  let path := ['/'].intercalate (straightened (relative.splitOn '/'))
  decoded (decoded ('/' :: path)).toList

/-- A path and the fields of a query. -/
structure Target where
  path : String
  query : List (String × String)
deriving DecidableEq, Repr

/-- Reads a target. What follows a number sign is not part of it. -/
def Target.ofString (s : String) : Target :=
  let cs := s.toList.takeWhile (· ≠ '#')
  { path := pathOf (cs.takeWhile (· ≠ '?'))
    query := queryFields ((cs.dropWhile (· ≠ '?')).drop 1) }

/-- The value of a field of the query; of several the last one counts. -/
def Target.value? (t : Target) (name : String) : Option String := t.query.reverse.lookup name

end VennDiagram.Service
