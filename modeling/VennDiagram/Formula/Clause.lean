/-!
# `VennDiagram.Formula.Clause`: literals, clauses and their truth

Variables are numbered from one. A literal is a variable or its negation, written as the variable's
number or that number with a minus. A clause is a disjunction of literals, in order, in which literals
may repeat.

An assignment gives some variables a truth value. Under it a clause is true, false, or open: `some true`
as soon as one literal is true, `some false` if all literals are false, and `none` while a variable
without a value could still make it true.
-/

set_option autoImplicit false

namespace VennDiagram

/-- A variable or its negation. -/
structure Literal where
  var : Nat
  positive : Bool
deriving DecidableEq, Repr

namespace Literal

/-- The literal written as an integer: the variable is its magnitude, and a minus negates. -/
def ofInt (i : Int) : Literal := ⟨i.natAbs, 0 < i⟩

/-- A literal, written as an integer. -/
def toInt (l : Literal) : Int := if l.positive then l.var else -(l.var : Int)

/-- The literal that says the variable is true. -/
def yes (var : Nat) : Literal := ⟨var, true⟩

/-- The literal that says the variable is false. -/
def no (var : Nat) : Literal := ⟨var, false⟩

/-- A literal that is read from an integer is written as that integer. -/
theorem toInt_ofInt (i : Int) : (ofInt i).toInt = i := by
  simp only [toInt, ofInt, decide_eq_true_eq]
  split <;> omega

/-- What the literal says when its variable has the given value. -/
def holds (l : Literal) (value : Bool) : Bool := if l.positive then value else !value

end Literal

/-- Truth values for some of the variables. -/
abbrev Assignment := Nat → Option Bool

namespace Assignment

/-- The assignment of the given pairs; of two pairs for one variable the later one counts. -/
def ofPairs (pairs : List (Nat × Option Bool)) : Assignment :=
  fun var => (pairs.reverse.lookup var).join

/-- The assignment that gives the variables from one on the listed values. -/
def ofList (values : List Bool) : Assignment
  | 0 => none
  | var + 1 => values[var]?

end Assignment

/-- The truth of a literal under an assignment. -/
def Literal.eval (a : Assignment) (l : Literal) : Option Bool := (a l.var).map l.holds

/-- A disjunction of literals. -/
abbrev Clause := List Literal

namespace Clause

/-- The truth of a clause under an assignment. -/
def eval (a : Assignment) : Clause → Option Bool
  | [] => some false
  | l :: rest =>
    match l.eval a with
    | some true => some true
    | some false => eval a rest
    | none => if eval a rest = some true then some true else none

end Clause

/-- The positions of the clauses that an assignment does not make true. -/
def failing (a : Assignment) (clauses : List Clause) : List Nat :=
  (clauses.zipIdx.filter fun (c, _) => c.eval a ≠ some true).map Prod.snd

end VennDiagram
