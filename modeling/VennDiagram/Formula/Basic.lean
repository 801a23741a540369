import VennDiagram.Formula.Clause
import VennDiagram.Json.Writer

/-!
# `VennDiagram.Formula.Basic`: formulas and how they grow

A formula has allocated variables, numbered from one, and a list of clauses, all of which must hold. It
grows by allocating variables and adding clauses. A clause may name a variable that is not allocated;
such a variable never gets a value. `addValue` adds a clause given as a JSON value and refuses a member
that is not a nonzero integer; a refused clause leaves the formula as it was.
-/

set_option autoImplicit false

namespace VennDiagram

/-- Allocated variables `1 .. numVars` and clauses in the order they were added. -/
structure Formula where
  numVars : Nat
  clauses : List Clause
deriving DecidableEq, Repr

/-- Why a clause is refused. -/
inductive ClauseError where
  /-- The value has no members. -/
  | notAList
  /-- A member is not a nonzero integer. -/
  | invalidLiteral (member : Json)

/-- The message of a refusal. Where it would show a member that cannot be shown, it says why. -/
def ClauseError.message [Json.Limits] : ClauseError → String
  | .notAList => ""
  | .invalidLiteral member =>
    match member.display with
    | .ok shown => "Invalid literal " ++ shown ++ ": literals must be nonzero integers"
    | .error f => f.message

namespace Formula

/-- The formula without variables and clauses. -/
def empty : Formula := ⟨0, []⟩

/-- A fresh variable, and the formula with it. -/
def allocate (f : Formula) : Nat × Formula := (f.numVars + 1, { f with numVars := f.numVars + 1 })

/-- Fresh variables in a row, and the formula with them. -/
def allocateMany (f : Formula) (count : Nat) : List Nat × Formula :=
  (List.range' (f.numVars + 1) count, { f with numVars := f.numVars + count })

/-- The formula with one more clause. -/
def add (f : Formula) (c : Clause) : Formula := { f with clauses := f.clauses ++ [c] }

/-- The formula with more clauses, in order. -/
def addAll (f : Formula) (cs : List Clause) : Formula := { f with clauses := f.clauses ++ cs }

/-- The literal of a JSON value. -/
def literal (member : Json) : Except ClauseError Literal :=
  match member with
  | .int i => if i = 0 then .error (.invalidLiteral member) else .ok (.ofInt i)
  | _ => .error (.invalidLiteral member)

/-- The formula with the clause of the given members. -/
def addMembers (f : Formula) (members : List Json) : Except ClauseError Formula :=
  (members.mapM literal).map f.add

/-- The formula with the clause of the members of a value. -/
def addValue (f : Formula) (v : Json) : Except ClauseError Formula :=
  match v.members? with
  | some members => f.addMembers members
  | none => .error .notAList

end Formula
end VennDiagram
