import VennDiagram.Command.Invocation
import VennDiagram.Document.Defect
import VennDiagram.Document.Reader
import VennDiagram.Files.Tree
import VennDiagram.Formula.Dimacs
import VennDiagram.Placement.Record
import VennDiagram.Placement.Run
import VennDiagram.Rules.Override

/-!
# `VennDiagram.Command.Run`: carrying out an invocation

An invocation is carried out in two steps, so that the time between them can be measured: `Invocation.start`
reads the files it needs and does the work, and `Started.finish` puts its outcome together. An outcome is
an exit status, output, log entries, and perhaps a file that is still to be saved. `execute` does all of
that for a command line in a tree of files.
-/

set_option autoImplicit false

namespace VennDiagram.Command

/-- The files that can be read, by path. -/
abbrev Content := String → Except Files.Trouble (List UInt8)

/-- A file to be saved, and the log entry for when it is. -/
structure Saving where
  path : String
  text : String
  entry : Log.Entry
deriving DecidableEq, Repr

/-- What carrying out an invocation comes to. -/
structure Outcome where
  status : Nat
  output : String
  log : List Log.Entry
  saving : Option Saving
deriving DecidableEq, Repr

/-- The status after a report of what is wrong. -/
def reportedStatus : Nat := 2

/-- Why the work cannot be done: something is reported, line by line, or it is a failure. -/
inductive Halt where
  | reported (messages : List String)
  | failed (f : Failure)
deriving DecidableEq, Repr

/-- The halt of a report. -/
def Halt.ofReport : Except Failure String → Halt
  | .ok message => .reported [message]
  | .error f => .failed f

/-- An error entry of the program itself. -/
def errorEntry (message : String) : Log.Entry := ⟨.error, .program, message⟩

/-- Work that is done, before its outcome is put together. -/
inductive Started where
  | reported (messages : List String)
  | laidOut (run : Run Float) (out : Option String)
  | decided (f : Formula) (r : Result)

namespace Invocation

/-! ### Doing the work -/

variable [Json.Limits]

/-- The rules of a run: the standard ones, or those overridden by the file at a path. -/
def readRules (content : Content) (path : Option String) : Except Halt (Rules Float) :=
  match nonempty? path with
  | none => .ok .standard
  | some path =>
    let path := Files.plain path
    (Rules.load .standard (content path)).mapError fun e => .ofReport (Rules.report path e)

/-- The document in the file at a path. -/
def readDocument (content : Content) (path : String) : Except Halt (Document Float) :=
  let path := Files.plain path
  (Document.load (content path)).mapError fun e => .ofReport (Document.report path e)

/-- A side of the canvas, if it is asked for. -/
def readSide (side : Option (Option Float)) : Except Halt (Option Float) :=
  match side with
  | none => .ok none
  | some (some x) => .ok (some x)
  | some none => .error (.failed .blankSide)

/-- Lays out a document. The rules are read before the document, and a document with defects is not laid
out. -/
def startLayout (content : Content) (a : LayoutArguments) : Except Halt Started := do
  let rules ← readRules content a.rules
  let d ← readDocument content a.data
  match d.defects with
  | [] =>
    -- The sides are looked at only when the document is known to be in order.
    let width ← readSide a.width
    let height ← readSide a.height
    match Run.start rules d width height with
    | .ok run => return .laidOut run (nonempty? a.out)
    | .error e => .error (.failed e.failure)
  | defects => .error (.reported (defects.map fun defect => "Invalid data: " ++ defect.message))

/-- Decides the formula in the file at a path. -/
def startSolve (content : Content) (path : String) : Except Halt Started :=
  match content (Files.plain path) with
  | .error t => .error (.ofReport t.report)
  | .ok bytes =>
    match Files.textOf bytes with
    | .error f => .error (.failed (.undecodable f))
    | .ok text =>
      match Dimacs.read (String.ofList text) with
      | .error e => .error (.reported [e.message])
      | .ok d => .ok (.decided d.formula d.formula.decide)

/-- Does the work of an invocation. -/
def start (content : Content) (i : Invocation) : Except Failure Started :=
  let work := match i with
    | .layout a => startLayout content a
    | .solve path => startSolve content path
    | .serve _ _ => .error (.reported ["This program answers requests but opens no connections"])
  match work with
  | .ok s => .ok s
  | .error (.reported messages) => .ok (.reported messages)
  | .error (.failed f) => .error f

end Invocation

/-! ### Putting the outcome together -/

/-- The outcome of laying out a document: its layout is saved or put out. -/
def layoutOutcome (run : Run Float) (out : Option String) (elapsed : Float) : Except Failure Outcome :=
  match run.layout elapsed with
  | .error e => .error e.failure
  | .ok l =>
    let text := l.toJson.pretty
    let log := run.log elapsed
    match out with
    | none => .ok ⟨0, text ++ "\n", log, none⟩
    | some path =>
      let path := Files.plain path
      let entry : Log.Entry :=
        ⟨.info, .program, "Wrote " ++ l.method.name ++ " layout to " ++ path⟩
      .ok ⟨0, "", log, some ⟨path, text, entry⟩⟩

/-- The outcome of deciding a formula: its status tells the verdict. -/
def solveOutcome (f : Formula) (r : Result) (elapsed : Float) : Outcome :=
  let summary :=
    toString r.effort.decisions ++ " decision(s), " ++ toString r.effort.backtracks ++
      " backtrack(s), " ++ NumberStyle.plain.writeFixed 3 elapsed ++ "s"
  { status := if r.ok then 10 else 20
    output := Dimacs.writeResult r
    log := f.decideLog r ++ [⟨.info, .program, summary⟩]
    saving := none }

/-- The outcome of work that took the given seconds. -/
def Started.finish (s : Started) (elapsed : Float) : Except Failure Outcome :=
  match s with
  | .reported messages => .ok ⟨reportedStatus, "", messages.map errorEntry, none⟩
  | .laidOut run out => layoutOutcome run out elapsed
  | .decided f r => .ok (solveOutcome f r elapsed)

/-! ### In a tree of files -/

/-- What a command line leaves behind. -/
structure Answer where
  status : Nat
  output : String
  /-- The log, or the text of a refusal. -/
  errors : String
  files : Files.Tree
deriving DecidableEq, Repr

/-- The status of a refusal. -/
def Refusal.status (r : Refusal) : Nat :=
  match r.stop with
  | .help => 0
  | .complaint _ => 2

/-- The answer to arguments that are refused. Help goes to the output. -/
def Refusal.answer (r : Refusal) (files : Files.Tree) : Answer :=
  match r.stop with
  | .help => ⟨r.status, r.text, "", files⟩
  | .complaint _ => ⟨r.status, "", r.text, files⟩

/-- The answer of an outcome in a tree, whose file is saved. -/
def Outcome.answer (o : Outcome) (least : Nat) (files : Files.Tree) : Except Failure Answer :=
  match o.saving with
  | none => .ok ⟨o.status, o.output, Log.render least o.log, files⟩
  | some s =>
    match files.save s.path s.text.toUTF8.toList with
    | .error t => .error (.trouble t)
    | .ok files => .ok ⟨o.status, o.output, Log.render least (o.log ++ [s.entry]), files⟩

/-- The least rank of the log that a command line asks for. -/
def CommandLine.leastRank (line : CommandLine) : Except Failure Nat :=
  match line.logLevel with
  | none => .error .blankLevel
  | some name => (Log.threshold name).mapError .setting

/-- Carries out a command line in a tree of files; its work is reported to have taken the given
seconds. -/
def execute [Json.Limits] (files : Files.Tree) (arguments : List String) (elapsed : Float) :
    Except Failure Answer :=
  match Invocation.parse arguments with
  | .error r => .ok (r.answer files)
  | .ok line => do
    let least ← line.leastRank
    let started ← line.invocation.start files.read
    let outcome ← started.finish elapsed
    outcome.answer least files

end VennDiagram.Command
