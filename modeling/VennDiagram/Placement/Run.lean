import VennDiagram.Failure
import VennDiagram.Formula.Search
import VennDiagram.Log.Basic
import VennDiagram.Number.Written
import VennDiagram.Placement.Arrangement
import VennDiagram.Placement.Layout

/-!
# `VennDiagram.Placement.Run`: laying out a document

A run fixes the circles, samples candidates for dots and labels, encodes the choice among them, and
decides the formula. Its layout is the decoded model, or the fallback if there is none. `Run.log` reports
the stages of a run, and `optimize` is the whole of it.
-/

set_option autoImplicit false

namespace VennDiagram

/-- What the stages of a run produced. -/
structure Run (α : Type) where
  document : Document α
  rules : Rules α
  center : α × α
  circles : List (Circle α)
  dots : List (List (DotCandidate α))
  labels : List (List (LabelCandidate α))
  encoding : Encoding
  result : Result

/-- Why a document cannot be laid out. -/
inductive RunError where
  /-- The scan of the grid of some organization does not end. -/
  | endlessScan
  | encode (e : EncodeError)
  | decode (e : DecodeError)
deriving DecidableEq, Repr

/-- The failure of a run. The stages of a run fit together, so only the scan of a grid can fail. -/
def RunError.failure : RunError → Failure
  | .endlessScan => .endlessScan
  | .encode _ => .misfit
  | .decode _ => .misfit

namespace Run

variable {α : Type} [Scalar α]

/-- The run of a document on a canvas whose size overrides that of the rules. -/
def start (rules : Rules α) (d : Document α) (width height : Option α) : Except RunError (Run α) :=
  let center : α × α :=
    (width.getD rules.canvasWidth / Scalar.ofNat 2, height.getD rules.canvasHeight / Scalar.ofNat 2)
  let circles := d.circles rules center
  match allDotCandidates rules circles d.organizations with
  | none => .error .endlessScan
  | some dots =>
    let labels := circles.map (labelCandidates rules)
    match encode .empty rules circles dots labels with
    | .error e => .error (.encode e)
    | .ok encoding =>
      let result := encoding.formula.decide
      .ok { document := d, rules, center, circles, dots, labels, encoding, result }

/-- The numbers of a run whose search took the given time, which they round. The log does not. -/
def statistics (run : Run α) (elapsed : Float) : Statistics :=
  { numVars := run.encoding.formula.numVars
    numClauses := run.encoding.formula.clauses.length
    decisions := run.result.effort.decisions
    backtracks := run.result.effort.backtracks
    elapsed := NumberStyle.roundTo 4 elapsed
    counts := run.encoding.counts }

/-- The layout of a run whose search took the given time. -/
def layout (run : Run α) (elapsed : Float) : Except RunError (Layout α) :=
  let statistics := some (run.statistics elapsed)
  if run.result.ok then
    match decode run.result run.encoding run.document.organizations run.circles run.dots run.labels with
    | .ok l => .ok { l with statistics }
    | .error e => .error (.decode e)
  else
    .ok { fallback run.rules run.document.organizations run.circles with statistics }

end Run

/-- The layout of a document, its search reported to have taken the given time. -/
def optimize {α : Type} [Scalar α] (rules : Rules α) (d : Document α) (width height : Option α)
    (elapsed : Float) : Except RunError (Layout α) :=
  match Run.start rules d width height with
  | .ok run => run.layout elapsed
  | .error e => .error e

/-! ### The log -/

/-- What deciding a formula reports. -/
def Formula.decideLog (f : Formula) (r : Result) : List Log.Entry :=
  let decisions := toString r.effort.decisions ++ " decision(s)"
  ⟨.debug, .solver,
    "Deciding " ++ toString f.numVars ++ " variable(s), " ++ toString f.clauses.length ++
      " clause(s)"⟩ ::
    if f.clauses.any List.isEmpty then []
    else if r.ok then
      [⟨.debug, .solver,
        "SAT after " ++ decisions ++ ", " ++ toString r.effort.backtracks ++ " backtrack(s)"⟩]
    else [⟨.debug, .solver, "UNSAT after " ++ decisions⟩]

namespace Run

/-- How the log shows a coordinate. -/
def coordinate (x : Float) : String := NumberStyle.plain.writeFixed 0 x

/-- What fixing the circles reports. -/
def circlesLog (run : Run Float) : Log.Entry :=
  let count := toString run.circles.length
  ⟨.info, .circles,
    if run.document.givenCircles?.isSome then
      "Using precomputed geometry for " ++ count ++ " circle(s)"
    else
      "Arranged " ++ count ++ " circle(s) on a ring around (" ++ coordinate run.center.1 ++ ", " ++
        coordinate run.center.2 ++ ")"⟩

/-- What sampling candidates reports. -/
def candidatesLog (run : Run Float) : List Log.Entry :=
  List.zipWith
    (fun o found =>
      ⟨.debug, .candidates,
        "Organization " ++ Text.quoted o.name ++ ": " ++ toString found.length ++ " candidate(s)"⟩)
    run.document.organizations run.dots

/-- What encoding reports. -/
def encodingLog (run : Run Float) : List Log.Entry :=
  let overlaps := run.encoding.counts.labelCircleOverlaps
  let f := run.encoding.formula
  (if overlaps = 0 then []
    else
      [⟨.debug, .encoder,
        toString overlaps ++ " label candidate(s) overlap a circle (not constrained)"⟩]) ++
    [⟨.info, .encoder,
      "SAT problem: " ++ toString f.numVars ++ " variables, " ++ toString f.clauses.length ++ " clauses"⟩]

/-- What the end of a run reports. -/
def outcomeLog (run : Run Float) (elapsed : Float) : List Log.Entry :=
  let effort := run.result.effort
  let seconds := NumberStyle.plain.writeFixed 2 elapsed ++ "s"
  let decisions := toString effort.decisions ++ " decisions, "
  if run.result.ok then
    let unplaced := match run.layout elapsed with
      | .ok l => l.unplaced
      | .error _ => []
    ⟨.info, .engine,
      "Solution found (" ++ decisions ++ toString effort.backtracks ++ " backtracks, " ++ seconds ++ ")"⟩ ::
      if unplaced.isEmpty then []
      else
        [⟨.info, .decoder,
          toString unplaced.length ++ " organization(s) without candidates left unplaced: " ++
            ", ".intercalate unplaced⟩]
  else
    [ ⟨.warning, .engine, "No solution found (" ++ decisions ++ seconds ++ "); falling back"⟩,
      ⟨.warning, .fallback, "Using fallback layout"⟩ ]

/-- What a run reports, its search reported to have taken the given time. -/
def log (run : Run Float) (elapsed : Float) : List Log.Entry :=
  let total {β : Type} (groups : List (List β)) := toString groups.flatten.length
  [ ⟨.info, .engine,
      "=== Layout optimization: " ++ toString run.document.categories.length ++ " categories, " ++
        toString run.document.organizations.length ++ " organizations ==="⟩,
    run.circlesLog ] ++
  run.candidatesLog ++
  [ ⟨.info, .engine,
      "Candidates: " ++ total run.dots ++ " org positions, " ++ total run.labels ++
        " label positions"⟩ ] ++
  run.encodingLog ++
  [ ⟨.info, .engine, "Solving..."⟩ ] ++
  run.encoding.formula.decideLog run.result ++
  run.outcomeLog elapsed

end Run
end VennDiagram
