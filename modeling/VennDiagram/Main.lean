import VennDiagram.Command.Run

/-!
# `VennDiagram.Main`: the program

Reads the files that an invocation needs, carries it out, and puts out what comes of it. This is the only
module that talks to the system; all it decides is which of the system's errors is which problem.
-/

set_option autoImplicit false

namespace VennDiagram.Program

open Command

/-- The problem behind an error of the system. -/
def problemOf (e : IO.Error) : Files.Problem :=
  match e with
  | .alreadyExists _ _ _ => .alreadyExists
  | .inappropriateType _ number _ =>
    if number.toNat = Files.Problem.isADirectory.number then .isADirectory else .notADirectory
  | .invalidArgument _ number _ =>
    if number.toNat = Files.Problem.nameTooLong.number then .nameTooLong else .notFound
  | _ => .notFound

/-- What comes of an action on a path. -/
def attempt {β : Type} (path : String) (action : String → IO β) : IO (Except Files.Trouble β) := do
  if Files.hasNull path then return .error .nullCharacter
  try
    return .ok (← action path)
  catch e => return .error (.system (problemOf e) path)

/-- The bytes of the file at a path. -/
def contentOf (path : String) : IO (Except Files.Trouble (List UInt8)) :=
  attempt path fun path => do return (← IO.FS.readBinFile path).toList

/-- The paths of the files that an invocation reads. -/
def inputs : Invocation → List String
  | .layout a => (Files.plain a.data) :: ((nonempty? a.rules).map Files.plain).toList
  | .solve path => [Files.plain path]
  | .serve _ _ => []

/-- Saves a file, with the directories above it. -/
def save (s : Saving) : IO (Except Files.Trouble Unit) := do
  match ← attempt (Files.parent s.path) fun path => IO.FS.createDirAll path with
  | .error t => return .error t
  | .ok () => attempt s.path fun path => IO.FS.writeFile path s.text

/-- Ends with the message of a failure. -/
def failWith (f : Failure) : IO UInt32 := do
  IO.eprintln f.message
  return 1

/-- Carries out a command line, with a log from the given rank on. -/
def run (line : CommandLine) (least : Nat) : IO UInt32 := do
  let mut known : List (String × Except Files.Trouble (List UInt8)) := []
  for path in inputs line.invocation do
    known := (path, ← contentOf path) :: known
  let files := known
  let content : Content := fun path => (files.lookup path).getD (.error (.system .notFound path))
  let before ← IO.monoNanosNow
  match ← IO.lazyPure fun _ => line.invocation.start content with
  | .error f => failWith f
  | .ok started =>
    let after ← IO.monoNanosNow
    match started.finish ((after - before).toFloat / 1e9) with
    | .error f => failWith f
    | .ok outcome =>
      IO.print outcome.output
      IO.eprint (Log.render least outcome.log)
      match outcome.saving with
      | none => return outcome.status.toUInt32
      | some s =>
        match ← save s with
        | .error t => failWith (.trouble t)
        | .ok () =>
          IO.eprint (Log.render least [s.entry])
          return outcome.status.toUInt32

end VennDiagram.Program

/-- The program. -/
def main (arguments : List String) : IO UInt32 := do
  match VennDiagram.Command.Invocation.parse arguments with
  | .ok line =>
    match line.leastRank with
    | .ok least => VennDiagram.Program.run line least
    | .error f => VennDiagram.Program.failWith f
  | .error refusal =>
    let answer := refusal.answer .empty
    IO.print answer.output
    IO.eprint answer.errors
    return answer.status.toUInt32
