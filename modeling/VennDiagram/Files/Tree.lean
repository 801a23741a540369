import VennDiagram.Files.Basic

/-!
# `VennDiagram.Files.Tree`: directories and files in memory

A tree is what lies below the directory a program works in: directories, and files with their bytes. A
path leads from that directory, or from the root of the system, part by part to a location; two points
lead back to the directory above. Reading and saving fail as the system's own operations do.
-/

set_option autoImplicit false

namespace VennDiagram.Files

/-- The parts that lead to a directory or file without a detour. Leading double points lead out of the
tree, and a slash stands for the root of the system. -/
abbrev Location := List String

/-- Directories and files. The directory at the empty location always exists, and so do those above
it. -/
structure Tree where
  directories : List Location
  files : List (Location × List UInt8)
deriving DecidableEq, Repr

namespace Tree

/-- The tree without directories and files. -/
def empty : Tree := ⟨[], []⟩

/-- There is a directory at the location. -/
def isDirectory (t : Tree) (l : Location) : Bool :=
  l.all (· == "..") || l == ["/"] || t.directories.contains l

/-- The bytes of the file at the location. -/
def bytesAt? (t : Tree) (l : Location) : Option (List UInt8) := t.files.lookup l

/-- The location one part further, from a directory. -/
def follow (l : Location) (part : String) : Location :=
  if part = ".." then
    if l = ["/"] then l
    else if l.all (· == "..") then l ++ [part]
    else l.dropLast
  else l ++ [part]

/-- One part further, if the location is a directory. -/
def enter (t : Tree) (l : Location) (part : String) : Except Problem Location :=
  -- A part is only looked at in a directory, so a part that is too long is no trouble elsewhere.
  if t.isDirectory l then
    if partLimit < part.utf8ByteSize then .error .nameTooLong else .ok (follow l part)
  else if (t.bytesAt? l).isSome then .error .notADirectory
  else .error .notFound

/-- The location a root and parts lead to. -/
def locate (t : Tree) (root : String) (ps : List String) : Except Problem Location :=
  if pathLimit ≤ (join root ps).utf8ByteSize then .error .nameTooLong
  else ps.foldlM t.enter (if root = "" then [] else ["/"])

/-- The bytes of the file at a path. -/
def read (t : Tree) (path : String) : Except Trouble (List UInt8) :=
  if hasNull path then .error .nullCharacter
  else
    match t.locate (rootOf path) (parts path) with
    | .error p => .error (.system p (plain path))
    | .ok l =>
      if t.isDirectory l then .error (.system .isADirectory (plain path))
      else
        match t.bytesAt? l with
        | some bytes => .ok bytes
        | none => .error (.system .notFound (plain path))

/-- The tree with one more directory. -/
def makeDirectory (t : Tree) (root : String) (ps : List String) : Except Problem Tree := do
  let l ← t.locate root ps
  if t.isDirectory l || (t.bytesAt? l).isSome then .error .alreadyExists
  else return { t with directories := t.directories ++ [l] }

/-- A root and parts lead to a directory. -/
def leadsToDirectory (t : Tree) (root : String) (ps : List String) : Bool :=
  match t.locate root ps with
  | .ok l => t.isDirectory l
  | .error _ => false

/-- A directory is made, which may be there already. -/
def provideDirectory (t : Tree) (root : String) (ps : List String) : Except Problem Tree :=
  match t.makeDirectory root ps with
  | .ok t => .ok t
  | .error p => if p ≠ .notFound ∧ t.leadsToDirectory root ps then .ok t else .error p

/-- A directory is made, and those above it that are missing. The parts have the last one first. -/
def provideDirectories (t : Tree) (root : String) : (last : List String) → Except Trouble Tree
  | [] => (t.provideDirectory root []).mapError (.system · (join root []))
  | part :: above =>
    let ps := (part :: above).reverse
    if hasNull (join root ps) then .error .nullCharacter
    else
      match t.provideDirectory root ps with
      | .ok t => .ok t
      -- The one above is missing: it is made first, and then this one is tried again.
      | .error .notFound => do
        let t ← t.provideDirectories root above
        (t.provideDirectory root ps).mapError (.system · (join root ps))
      | .error p => .error (.system p (join root ps))

/-- The tree after the file at a path got new bytes. -/
def write (t : Tree) (path : String) (bytes : List UInt8) : Except Trouble Tree :=
  if hasNull path then .error .nullCharacter
  else
    match t.locate (rootOf path) (parts path) with
    | .error p => .error (.system p (plain path))
    | .ok l =>
      if t.isDirectory l then .error (.system .isADirectory (plain path))
      else .ok { t with files := t.files.filter (·.1 ≠ l) ++ [(l, bytes)] }

/-- The tree after the file at a path got new bytes, with the directories above it. -/
def save (t : Tree) (path : String) (bytes : List UInt8) : Except Trouble Tree := do
  let t ← t.provideDirectories (rootOf path) (parts path).dropLast.reverse
  t.write path bytes

/-- The files inside the tree that differ from another tree or are not in it, each with its path. -/
def changedSince (t before : Tree) : List (String × List UInt8) :=
  (t.files.filter fun (l, bytes) =>
    l.head? ≠ some ".." ∧ l.head? ≠ some "/" ∧ before.bytesAt? l ≠ some bytes).map
    fun (l, bytes) => ("/".intercalate l, bytes)

end Tree
end VennDiagram.Files
