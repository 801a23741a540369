import VennDiagram.Formula.Basic

/-!
# `VennDiagram.Formula.Result`: what deciding a formula yields

A verdict is a model, with one truth value for every allocated variable, or the statement that there is
none. A result adds the counters of the search that found it.
-/

set_option autoImplicit false

namespace VennDiagram

/-- The counters of a search. -/
structure Effort where
  /-- Values tried for a variable, both branches counted. -/
  decisions : Nat
  /-- Values that made a clause false. -/
  conflicts : Nat
  /-- Variables that lost their value after both branches failed. -/
  backtracks : Nat
deriving DecidableEq, Repr

/-- Whether a formula has a model, and which one was found. -/
inductive Verdict where
  | sat (model : Array Bool)
  | unsat
deriving DecidableEq, Repr

/-- The outcome of a search. -/
structure Result where
  verdict : Verdict
  effort : Effort
deriving DecidableEq, Repr

/-- Why a result cannot tell the truth of a literal. -/
inductive LookupError where
  | noModel
  | unknownVariable (var : Nat)
deriving DecidableEq, Repr

/-- The message of a failed look-up. -/
def LookupError.message : LookupError → String
  | .noModel => "Unsatisfiable result has no assignment"
  | .unknownVariable var => toString var

namespace Result

/-- The formula has a model. -/
def ok (r : Result) : Bool :=
  match r.verdict with
  | .sat _ => true
  | .unsat => false

/-- The model that was found. -/
def model? (r : Result) : Option (Array Bool) :=
  match r.verdict with
  | .sat model => some model
  | .unsat => none

/-- The value a model gives a variable. -/
def valueIn? (model : Array Bool) : Nat → Option Bool
  | 0 => none
  | var + 1 => model[var]?

/-- The truth of a literal under the model. -/
def value (r : Result) (l : Literal) : Except LookupError Bool :=
  match r.verdict with
  | .unsat => .error .noModel
  | .sat model =>
    match valueIn? model l.var with
    | some b => .ok (l.holds b)
    | none => .error (.unknownVariable l.var)

/-- The variables that are true in the model, in order. -/
def trueVars (r : Result) : List Nat :=
  match r.verdict with
  | .unsat => []
  | .sat model => (model.toList.zipIdx 1).filterMap fun (b, var) => if b then some var else none

end Result
end VennDiagram
