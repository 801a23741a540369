import VennDiagram.Text.Lines
import VennDiagram.Text.Quoted
import VennDiagram.Text.Utf8

/-!
# `VennDiagram.Files.Basic`: paths, and why a file cannot be used

A path is shown in its plain form: parts that are empty or a single point are left out, and the empty
path is the point. A leading slash stays, and so do exactly two. A file that cannot be used is reported
with the number and the wording of the system's error and the path between quotes.

The system bounds the length of a path and of each part of it, counted in bytes of UTF-8. A null
character ends the paths of the system, so none can have one in it.
-/

set_option autoImplicit false

namespace VennDiagram.Files

/-- Why a file or directory cannot be used. -/
inductive Problem where
  | notFound
  | alreadyExists
  | notADirectory
  | isADirectory
  | nameTooLong
deriving DecidableEq, Repr

/-- The system's number of a problem. -/
def Problem.number : Problem → Nat
  | .notFound => 2
  | .alreadyExists => 17
  | .notADirectory => 20
  | .isADirectory => 21
  | .nameTooLong => 36

/-- The system's wording of a problem. -/
def Problem.wording : Problem → String
  | .notFound => "No such file or directory"
  | .alreadyExists => "File exists"
  | .notADirectory => "Not a directory"
  | .isADirectory => "Is a directory"
  | .nameTooLong => "File name too long"

/-- What comes of using a path. -/
inductive Trouble where
  /-- The system has a problem with the path. -/
  | system (problem : Problem) (path : String)
  /-- The path has a null character in it. -/
  | nullCharacter
deriving DecidableEq, Repr

/-- The message of a trouble. -/
def Trouble.message : Trouble → String
  | .system problem path =>
    "[Errno " ++ toString problem.number ++ "] " ++ problem.wording ++ ": " ++ Text.quoted path
  | .nullCharacter => "embedded null byte"

/-- The parts of a path between its slashes, without those that say nothing. -/
def parts (path : String) : List String :=
  ((path.toList.splitOn '/').map String.ofList).filter fun part => part != "" && part != "."

/-- The slashes that make a path absolute: two stay two, and more are as one. -/
def rootOf (path : String) : String :=
  match path.toList with
  | '/' :: '/' :: '/' :: _ => "/"
  | '/' :: '/' :: _ => "//"
  | '/' :: _ => "/"
  | _ => ""

/-- The path made of a root and parts. -/
def join (root : String) (ps : List String) : String :=
  let s := root ++ "/".intercalate ps
  if s = "" then "." else s

/-- The plain form of a path. -/
def plain (path : String) : String := join (rootOf path) (parts path)

/-- The directory a path lies in. -/
def parent (path : String) : String := join (rootOf path) (parts path).dropLast

/-- The path has a null character in it. -/
def hasNull (path : String) : Bool := path.toList.contains '\x00'

/-- How many bytes a path can have, with the null that ends it. -/
def pathLimit : Nat := 4096

/-- How many bytes a part of a path can have. -/
def partLimit : Nat := 255

/-- The characters of a text file: its bytes decoded, with every line end turned into a line feed. -/
def textOf (bytes : List UInt8) : Except Text.Utf8.Fault (List Char) :=
  (Text.Utf8.decode bytes).map Text.unifyLineEnds

end VennDiagram.Files
