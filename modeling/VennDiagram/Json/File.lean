import VennDiagram.Failure
import VennDiagram.Json.Reader

/-!
# `VennDiagram.Json.File`: JSON files

A file that holds JSON can fail in two ways. What the file's author can mend is reported: the file cannot
be read, its text is not JSON, or its value is not what was asked for. The rest is a `Failure`: a path that
cannot be told to the system, bytes that are no text, integers with too many digits, and values that lie
too deep within each other.
-/

set_option autoImplicit false

namespace VennDiagram.Json

/-- Why a JSON file yields no value; `ε` says what can be wrong with the value. -/
inductive FileError (ε : Type) where
  | unreadable (t : Files.Trouble)
  | malformed (e : SyntaxError)
  | failed (f : Failure)
  | unfit (e : ε)

/-- What is reported about the file at a path, or the failure; `unfit` reports what is wrong with the
value. -/
def FileError.report {ε : Type} (path : String) (unfit : ε → Except Failure String) :
    FileError ε → Except Failure String
  | .unreadable t => t.report.map fun message => path ++ ": read error: " ++ message
  | .malformed e => .ok (path ++ ": parse error: " ++ e.message)
  | .failed f => .error f
  | .unfit e => unfit e

/-- The value in a file, given the file's bytes or why there are none. -/
def load [Limits] {ε : Type} (content : Except Files.Trouble (List UInt8)) : Except (FileError ε) Json :=
  match content with
  | .error t => .error (.unreadable t)
  | .ok bytes =>
    match Files.textOf bytes with
    | .error f => .error (.failed (.undecodable f))
    | .ok text =>
      match read text with
      | .error (.malformed e) => .error (.malformed e)
      | .error (.tooManyDigits n) => .error (.failed (.tooManyDigits n))
      | .error (.tooDeep container) => .error (.failed (.tooDeep container))
      | .ok v => .ok v

end VennDiagram.Json
