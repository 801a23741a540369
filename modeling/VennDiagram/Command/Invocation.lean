import VennDiagram.Command.Arguments
import VennDiagram.Log.Basic

/-!
# `VennDiagram.Command.Invocation`: what the program is asked to do

The arguments of the program name a command, after options that hold for all commands, and the command
has options and an operand of its own. `Invocation.parse` reads them. Arguments that ask for nothing the
program can do are refused with the usage of the command at hand and a complaint. Surplus arguments of
the command are complained about last, and in the name of the program.
-/

set_option autoImplicit false

namespace VennDiagram.Command

/-- The commands. -/
inductive Name where
  | layout
  | solve
  | serve
deriving DecidableEq, Repr

/-- How a command is named. -/
def Name.text : Name → String
  | .layout => "layout"
  | .solve => "solve"
  | .serve => "serve"

/-- All commands. -/
def Name.all : List Name := [.layout, .solve, .serve]

/-- The name of the program. -/
def program : String := "venn_layout"

/-- The program, or one of its commands. -/
def title : Option Name → String
  | none => program
  | some name => program ++ " " ++ name.text

/-- The usage of the program or of a command. -/
def usage : Option Name → String
  | none => "usage: venn_layout [-h] [--log-level LOG_LEVEL] \x7blayout,solve,serve\x7d ...\n"
  | some .layout =>
    "usage: venn_layout layout [-h] [--out OUT] [--rules RULES] [--width WIDTH]\n" ++
    "                          [--height HEIGHT]\n" ++
    "                          data\n"
  | some .solve => "usage: venn_layout solve [-h] cnf\n"
  | some .serve => "usage: venn_layout serve [-h] [--host HOST] [--port PORT]\n"

/-- What the command `layout` is asked for. -/
structure LayoutArguments where
  /-- The path of the document. -/
  data : String
  /-- Where the layout goes, if not to the output. -/
  out : Option String
  /-- The path of overrides of the rules. -/
  rules : Option String
  /-- The width of the canvas, if it is asked for; a blank one is no number. -/
  width : Option (Option Float)
  height : Option (Option Float)
deriving DecidableEq

/-- What the program is asked to do. -/
inductive Invocation where
  | layout (a : LayoutArguments)
  | solve (cnf : String)
  | serve (host : String) (port : Int)
deriving DecidableEq

/-- A command line that was read. -/
structure CommandLine where
  /-- The name of the level of the log, unless it is blank. -/
  logLevel : Option String
  invocation : Invocation
deriving DecidableEq

/-- Why the program or a command was not invoked. -/
structure Refusal where
  name : Option Name
  stop : Stop
deriving DecidableEq, Repr

/-- What a refusal writes. -/
def Refusal.text (r : Refusal) : String :=
  match r.stop with
  | .help => usage r.name
  | .complaint c => usage r.name ++ title r.name ++ ": error: " ++ c.message ++ "\n"

/-! ### Grammars -/

/-- The option that asks for help. -/
def helpFlag {σ : Type} : Flag σ := ⟨["-h", "--help"], .help⟩

/-- The grammar of the program, whose setting is the level of the log. -/
def programGrammar : Grammar (Option String) where
  flags := [helpFlag, ⟨["--log-level"], .text fun level _ => level⟩]
  operand := some "cmd"
  takesRest := true

/-- The grammar of `layout`. -/
def layoutGrammar : Grammar LayoutArguments where
  flags :=
    [ helpFlag,
      ⟨["--out"], .text fun path a => { a with out := path }⟩,
      ⟨["--rules"], .text fun path a => { a with rules := path }⟩,
      ⟨["--width"], .number fun x a => { a with width := some x }⟩,
      ⟨["--height"], .number fun x a => { a with height := some x }⟩ ]
  operand := some "data"
  takesRest := false

/-- The grammar of `solve`, which has no settings. -/
def solveGrammar : Grammar Unit where
  flags := [helpFlag]
  operand := some "cnf"
  takesRest := false

/-- The grammar of `serve`, whose settings are the host and the port. -/
def serveGrammar : Grammar (String × Int) where
  flags :=
    [ helpFlag,
      ⟨["--host"], .text fun host s => (host.getD s.1, s.2)⟩,
      ⟨["--port"], .integer fun port s => (s.1, port.getD s.2)⟩ ]
  operand := none
  takesRest := false

/-! ### Reading -/

namespace Invocation

/-- Reads the arguments of a command, and what is surplus among them. -/
def read (name : Name) (arguments : List String) : Except Stop (Invocation × List String) :=
  match name with
  | .layout => do
    let r ← layoutGrammar.read ⟨"", none, none, none, none⟩ arguments
    return (.layout { r.settings with data := r.operand.getD "" }, r.surplus)
  | .solve => do
    let r ← solveGrammar.read () arguments
    return (.solve (r.operand.getD ""), r.surplus)
  | .serve => do
    let r ← serveGrammar.read ("127.0.0.1", 8000) arguments
    return (.serve r.settings.1 r.settings.2, r.surplus)

/-- Reads a command line. -/
def parse (arguments : List String) : Except Refusal CommandLine := do
  let r ← (programGrammar.read (some "INFO") arguments).mapError (⟨none, ·⟩)
  let word := r.operand.getD ""
  match Name.all.find? (·.text == word) with
  | none => .error ⟨none, .complaint (.unknownChoice "cmd" word (Name.all.map Name.text))⟩
  | some name =>
    let (invocation, surplus) ← (read name r.rest).mapError (⟨some name, ·⟩)
    -- What a command has no use for is a complaint of the program.
    if r.surplus.isEmpty && surplus.isEmpty then return ⟨r.settings, invocation⟩
    else .error ⟨none, .complaint (.unrecognized (r.surplus ++ surplus))⟩

end Invocation
end VennDiagram.Command
