import VennDiagram.Files.Basic
import VennDiagram.Json.Reader
import VennDiagram.Log.Basic

/-!
# `VennDiagram.Failure`: what ends the work without a report

Most of what can be wrong with an input is reported to its author in the terms of the input. A failure is
the rest: a limit of the program was hit, or the system refused a file that was to be written. It ends
the command or the request at hand.
-/

set_option autoImplicit false

namespace VennDiagram

/-- What ends the work without a report. -/
inductive Failure where
  /-- The bytes of a file are no text. -/
  | undecodable (f : Text.Utf8.Fault)
  /-- An integer with more digits than `Text.digitLimit`. They are counted when it is read. -/
  | tooManyDigits (count : Option Nat)
  /-- JSON values that lie too deep within each other. The container is known when they are read. -/
  | tooDeep (container : Option Json.Container)
  /-- An integer beyond the doubles. -/
  | tooLarge
  /-- A file cannot be used. -/
  | trouble (t : Files.Trouble)
  /-- The level of the log is asked for by the name of another setting. -/
  | setting (e : Log.SettingError)
  /-- The level of the log is asked for without a name. -/
  | blankLevel
  /-- A side of the canvas is asked for without a number. -/
  | blankSide
  /-- A reply holds a number that JSON cannot express. -/
  | notFinite
  /-- The scan of a grid does not end. -/
  | endlessScan
  /-- Two stages of a run do not fit together. -/
  | misfit
deriving DecidableEq, Repr

/-- The message of a failure. -/
def Failure.message : Failure → String
  | .undecodable f => f.message
  | .tooManyDigits count? =>
    let found := match count? with
      | some count => ": value has " ++ toString count ++ " digits"
      | none => ""
    "Exceeds the limit (" ++ toString Text.digitLimit ++ " digits) for integer string conversion" ++
      found ++ "; use sys.set_int_max_str_digits() to increase the limit"
  | .tooDeep (some container) =>
    "maximum recursion depth exceeded while decoding a JSON " ++ container.name ++
      " from a unicode string"
  | .tooDeep none => "maximum recursion depth exceeded while getting the repr of an object"
  | .tooLarge => "int too large to convert to float"
  | .trouble t => t.message
  | .setting e => e.message
  | .blankLevel => "The level of the log has no name"
  | .blankSide => "A side of the canvas has no number"
  | .notFinite => "Out of range float values are not JSON compliant"
  | .endlessScan => "The grid step is too small to move the scan of the grid forward"
  | .misfit => "The stages of the run do not fit together"

/-- What is reported about a file that cannot be used. A path that cannot be told to the system is a
failure. -/
def Files.Trouble.report : Files.Trouble → Except Failure String
  | .system problem path => .ok (Files.Trouble.system problem path).message
  | .nullCharacter => .error (.trouble .nullCharacter)

end VennDiagram
