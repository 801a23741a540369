import VennDiagram.Text.Capital

/-!
# `VennDiagram.Log.Basic`: log entries

A stage of a run reports what it did as a list of entries; whoever runs it decides which are shown. An
entry has a level, a source and a message, and is shown as one line.
-/

set_option autoImplicit false

namespace VennDiagram.Log

/-- How much an entry matters. -/
inductive Level where
  | debug
  | info
  | warning
  | error
deriving DecidableEq, Repr

/-- The rank of a level. -/
def Level.rank : Level → Nat
  | .debug => 10
  | .info => 20
  | .warning => 30
  | .error => 40

/-- The name of a level. -/
def Level.name : Level → String
  | .debug => "DEBUG"
  | .info => "INFO"
  | .warning => "WARNING"
  | .error => "ERROR"

/-- The stage an entry comes from. -/
inductive Source where
  | program
  | engine
  | circles
  | candidates
  | encoder
  | decoder
  | fallback
  | solver
deriving DecidableEq, Repr

/-- The name of a source in the log. -/
def Source.name : Source → String
  | .program => "venn_layout"
  | .engine => "venn_layout.pipeline.placer.engine"
  | .circles => "venn_layout.pipeline.circles.layout"
  | .candidates => "venn_layout.pipeline.placer.candidates"
  | .encoder => "venn_layout.pipeline.placer.encoder"
  | .decoder => "venn_layout.pipeline.placer.decoder"
  | .fallback => "venn_layout.pipeline.placer.fallback"
  | .solver => "venn_layout.pipeline.sat.solver"

/-- A log entry. -/
structure Entry where
  level : Level
  source : Source
  message : String
deriving DecidableEq, Repr

/-- The line of an entry. -/
def Entry.line (e : Entry) : String :=
  e.level.name ++ ":" ++ e.source.name ++ ":" ++ e.message ++ "\n"

/-! ### The rank that is asked for -/

/-- The form of the lines, in the notation of format strings. -/
def lineFormat : String := "%(levelname)s:%(name)s:%(message)s"

/-- Why a name does not give a rank: it names a setting of the log that is none. -/
inductive SettingError where
  /-- The form of the lines. -/
  | format
  /-- The table of the notations for the form of the lines. -/
  | styles
deriving DecidableEq, Repr

/-- The message of an error. -/
def SettingError.message : SettingError → String
  | .format => "Unknown level: '" ++ lineFormat ++ "'"
  | .styles => "Level not an integer or a valid string"

/-- The least rank that is shown, by the name of a setting of the log in any case. A name of no setting
stands for the level `info`. -/
def threshold (name : String) : Except SettingError Nat :=
  match Text.capitalized name with
  | "NOTSET" => .ok 0
  | "DEBUG" => .ok 10
  | "WARN" => .ok 30
  | "WARNING" => .ok 30
  | "ERROR" => .ok 40
  | "FATAL" => .ok 50
  | "CRITICAL" => .ok 50
  -- These two are settings of the log, but no levels.
  | "BASIC_FORMAT" => .error .format
  | "_STYLES" => .error .styles
  | _ => .ok 20

/-- The lines of the entries that reach a rank. -/
def render (least : Nat) (entries : List Entry) : String :=
  String.join ((entries.filter fun e => least ≤ e.level.rank).map Entry.line)

end VennDiagram.Log
