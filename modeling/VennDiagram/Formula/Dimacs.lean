import VennDiagram.Formula.Result
import VennDiagram.Text.Lines
import VennDiagram.Text.Numeral

/-!
# `VennDiagram.Formula.Dimacs`: formulas as DIMACS text

A text is read line by line, without the blanks at the ends of a line. A line that begins with `c` is a
comment, one that begins with `p` a header, and one that begins with `%` ends the text. All other lines
hold tokens, and only the stream of tokens matters: a token is an integer, a zero ends a clause, and how
tokens are spread over lines does not count. The header is optional, and its count of variables is raised
to the greatest variable that occurs.

`write` and `writeResult` are the text of a formula and of a result. A formula with a variable whose number
has more digits than are written has no text, and `dump` tells.
-/

set_option autoImplicit false

namespace VennDiagram.Dimacs

/-- What a text holds. -/
structure Document where
  numVars : Nat
  clauses : List Clause
  comments : List String
deriving DecidableEq, Repr

/-- What is wrong with a line. -/
inductive Cause where
  | malformedHeader (line : String)
  | invalidLiteral (token : String)
  | emptyClause
deriving DecidableEq, Repr

/-- Why a text cannot be read. Lines are counted from one. -/
inductive Error where
  | atLine (number : Nat) (cause : Cause)
  | missingZero
deriving DecidableEq, Repr

/-- The message of an error. -/
def Error.message : Error → String
  | .atLine number cause =>
    "Line " ++ toString number ++ ": " ++
      match cause with
      | .malformedHeader line => "malformed header '" ++ line ++ "'"
      | .invalidLiteral token => "invalid literal '" ++ token ++ "'"
      | .emptyClause => "Empty clause"
  | .missingZero => "Missing terminating 0 on final clause"

/-! ### Reading -/

/-- A line of a text, by its first character. A blank line holds no tokens. -/
inductive Line where
  | comment (text : List Char)
  | header (text : List Char)
  | tokens (words : List (List Char))
deriving DecidableEq, Repr

/-- The line of a text without blanks at its ends. -/
def Line.ofText (s : List Char) : Line :=
  match s with
  | 'c' :: rest => .comment (Text.trim rest)
  | 'p' :: _ => .header s
  | _ => .tokens (Text.words s)

/-- The lines of a text before the end mark, each with its number. -/
def numberedLines (text : List Char) : List (Line × Nat) :=
  let trimmed := (Text.lines text).map Text.trim
  ((trimmed.takeWhile fun s => s.head? != some '%').map Line.ofText).zipIdx 1

/-- What has been read so far: the count of the last header, the clauses, the literals of the clause
that is not yet ended, and the comments. The lists have their last element first. -/
structure Reading where
  headerVars : Int
  clauses : List Clause
  current : Clause
  comments : List String
deriving DecidableEq, Repr

namespace Reading

/-- Nothing has been read. -/
def start : Reading := ⟨0, [], [], []⟩

/-- Reads a token: a literal, or the zero that ends a clause. -/
def token (r : Reading) (word : List Char) : Except Cause Reading :=
  match Text.readInt? word with
  | none => .error (.invalidLiteral (String.ofList word))
  | some i =>
    if i = 0 then
      if r.current.isEmpty then .error .emptyClause
      else .ok { r with clauses := r.current.reverse :: r.clauses, current := [] }
    else .ok { r with current := Literal.ofInt i :: r.current }

/-- Reads a header: the words `p` and `cnf` and two counts, of which only the first is read. -/
def header (r : Reading) (line : List Char) : Except Cause Reading :=
  match Text.words line with
  | [_, format, vars, _] =>
    if format = "cnf".toList then
      match Text.readInt? vars with
      | some count => .ok { r with headerVars := count }
      | none => .error (.malformedHeader (String.ofList line))
    else .error (.malformedHeader (String.ofList line))
  | _ => .error (.malformedHeader (String.ofList line))

/-- Reads a line. -/
def line (r : Reading) : Line → Except Cause Reading
  | .comment text => .ok { r with comments := String.ofList text :: r.comments }
  | .header text => r.header text
  | .tokens words => words.foldlM token r

/-- Reads numbered lines. -/
def lines (r : Reading) (ls : List (Line × Nat)) : Except Error Reading :=
  ls.foldlM (fun r (l, number) => (r.line l).mapError (.atLine number)) r

/-- The document of a complete reading. -/
def finish (r : Reading) : Except Error Document :=
  if r.current.isEmpty then
    -- The clauses may name more variables than the header counts, and there may be no header.
    let greatest := (r.clauses.flatten.map Literal.var).foldl max 0
    .ok
      { numVars := max r.headerVars.toNat greatest
        clauses := r.clauses.reverse
        comments := r.comments.reverse }
  else .error .missingZero

end Reading

/-- Reads a text. -/
def read (text : String) : Except Error Document := do
  let r ← Reading.start.lines (numberedLines text.toList)
  r.finish

/-- The formula of a document. -/
def Document.formula (d : Document) : Formula := ⟨d.numVars, d.clauses⟩

/-! ### Writing -/

/-- The line of a clause: its literals and a zero. -/
def writeClause (c : Clause) : String :=
  " ".intercalate (c.map (fun l => toString l.toInt) ++ ["0"])

/-- The text of a formula, after comments. -/
def write (f : Formula) (comments : List String) : String :=
  let header := "p cnf " ++ toString f.numVars ++ " " ++ toString f.clauses.length
  let lines := comments.map ("c " ++ ·) ++ header :: f.clauses.map writeClause
  "\n".intercalate lines ++ "\n"

/-- No number in the text of a formula has more than `Text.digitLimit` digits. The number of its clauses is
that of a list in memory, and never so long. -/
def isWritable (f : Formula) : Bool :=
  ((f.numVars : Int) :: f.clauses.flatten.map Literal.toInt).all fun i => (Text.writeInt? i).isSome

/-- Writes a formula, after comments. -/
def dump (f : Formula) (comments : List String) : Except Failure String :=
  if isWritable f then .ok (write f comments) else .error (.tooManyDigits none)

/-- The text of a result: a line with the verdict and, for a model, a line with its literals. -/
def writeResult (r : Result) : String :=
  match r.verdict with
  | .unsat => "s UNSATISFIABLE\n"
  | .sat model =>
    let literals := (model.toList.zipIdx 1).map fun (b, var) => Literal.mk var b
    "s SATISFIABLE\nv " ++ writeClause literals ++ "\n"

end VennDiagram.Dimacs
