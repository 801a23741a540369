import VennDiagram.Formula.Result

/-!
# `VennDiagram.Formula.Search`: deciding a formula

The search gives values to the variables in order, true before false, and goes back as soon as a clause
is false. It ends with a model when every clause is true or every variable has a value, and with
`Verdict.unsat` when it has gone back beyond the first variable.

`Counters` holds the state between two steps: the value of each variable and, for each clause, how many
of its literals are true and how many are false. `Counters.assign` and `Counters.unassign` keep these
numbers up to date, so that a clause is true while its true count is positive, and false when its false
count is its length. `Occurrences` lists for each variable the clauses it stands in, once for each place.

The trail is the list of decisions in force, the newest first. `retreat` takes decisions off the trail
until one can be flipped from true to false. The positions of the search, read as strings of true and
false, strictly increase in the order of a depth-first walk; `ahead` counts the strings that come after
a position and shows that the search ends.
-/

set_option autoImplicit false

namespace VennDiagram.Search

/-! ### Clause counters -/

/-- Where the variables stand: the length of each clause and, for each variable, the clauses that hold
it and those that hold its negation, once for each place. -/
structure Occurrences where
  lengths : Array Nat
  positive : Array (List Nat)
  negative : Array (List Nat)

namespace Occurrences

/-- One more place: the literal stands in the clause of the given number. -/
def note (o : Occurrences) (clause : Nat) (l : Literal) : Occurrences :=
  if l.positive then { o with positive := o.positive.modify l.var (clause :: ·) }
  else { o with negative := o.negative.modify l.var (clause :: ·) }

/-- The occurrences in a list of clauses over `numVars` variables. Places of a variable that is not
allocated are left out. -/
def ofClauses (numVars : Nat) (clauses : List Clause) : Occurrences :=
  -- Variables are counted from one, so place 0 of the tables stays empty.
  let blank : Occurrences :=
    { lengths := (clauses.map List.length).toArray
      positive := Array.replicate (numVars + 1) []
      negative := Array.replicate (numVars + 1) [] }
  clauses.zipIdx.foldl (fun o (c, number) => c.foldl (fun o l => o.note number l) o) blank

/-- The clauses that a value of a variable makes a literal of true, once for each literal. -/
def madeTrue (o : Occurrences) (var : Nat) (value : Bool) : List Nat :=
  (if value then o.positive else o.negative).getD var []

/-- The clauses that a value of a variable makes a literal of false, once for each literal. -/
def madeFalse (o : Occurrences) (var : Nat) (value : Bool) : List Nat :=
  (if value then o.negative else o.positive).getD var []

end Occurrences

/-- The values of the variables, the counts of true and of false literals of each clause, and the
number of clauses with a true literal. -/
structure Counters where
  values : Array (Option Bool)
  trueCount : Array Nat
  falseCount : Array Nat
  satisfied : Nat
deriving DecidableEq

namespace Counters

/-- No variable has a value. -/
def blank (numVars numClauses : Nat) : Counters :=
  { values := Array.replicate (numVars + 1) none
    trueCount := Array.replicate numClauses 0
    falseCount := Array.replicate numClauses 0
    satisfied := 0 }

/-- The value of a variable. -/
def value? (s : Counters) (var : Nat) : Option Bool := (s.values[var]?).join

/-- One more literal of the clause is true. -/
def gainTrue (s : Counters) (clause : Nat) : Counters :=
  -- The first true literal satisfies the clause, and the last one to go leaves it unsatisfied.
  let fresh := s.trueCount.getD clause 0 == 0
  { s with
    trueCount := s.trueCount.modify clause (· + 1)
    satisfied := if fresh then s.satisfied + 1 else s.satisfied }

/-- One literal fewer of the clause is true. -/
def loseTrue (s : Counters) (clause : Nat) : Counters :=
  let last := s.trueCount.getD clause 0 == 1
  { s with
    trueCount := s.trueCount.modify clause (· - 1)
    satisfied := if last then s.satisfied - 1 else s.satisfied }

/-- One more literal of the clause is false. -/
def gainFalse (s : Counters) (clause : Nat) : Counters :=
  { s with falseCount := s.falseCount.modify clause (· + 1) }

/-- One literal fewer of the clause is false. -/
def loseFalse (s : Counters) (clause : Nat) : Counters :=
  { s with falseCount := s.falseCount.modify clause (· - 1) }

/-- Every literal of the clause is false. -/
def isViolated (o : Occurrences) (s : Counters) (clause : Nat) : Bool :=
  s.falseCount.getD clause 0 == o.lengths.getD clause 0

/-- One more false literal in each of the clauses, and whether none of them became false. -/
def gainAllFalse (o : Occurrences) (s : Counters) (clauses : List Nat) : Counters × Bool :=
  -- Every count is updated, even after a clause became false: taking the value back undoes them all.
  clauses.foldl
    (fun (s, sound) clause =>
      let s := s.gainFalse clause
      let violated := s.isViolated o clause
      (s, sound && !violated))
    (s, true)

/-- The value of a variable is replaced. -/
def setValue (s : Counters) (var : Nat) (value : Option Bool) : Counters :=
  let ⟨values, trueCount, falseCount, satisfied⟩ := s
  ⟨values.setIfInBounds var value, trueCount, falseCount, satisfied⟩

/-- Gives a variable a value. The flag says that no clause became false. -/
def assign (o : Occurrences) (s : Counters) (var : Nat) (value : Bool) : Counters × Bool :=
  let s := (o.madeTrue var value).foldl gainTrue (s.setValue var (some value))
  s.gainAllFalse o (o.madeFalse var value)

/-- Takes the value of a variable away. A variable without a value stays as it is. -/
def unassign (o : Occurrences) (s : Counters) (var : Nat) : Counters :=
  match s.value? var with
  | none => s
  | some value =>
    let s := (o.madeTrue var value).foldl loseTrue s
    ((o.madeFalse var value).foldl loseFalse s).setValue var none

/-- Every clause has a true literal. -/
def allSatisfied (s : Counters) : Bool := s.satisfied == s.trueCount.size

end Counters

/-! ### The walk -/

/-- A value in force. -/
structure Decision where
  var : Nat
  value : Bool
deriving DecidableEq, Repr

/-- The state of the clauses and the effort spent so far. -/
structure Progress where
  counters : Counters
  effort : Effort

namespace Progress

/-- Tries a value for a variable. The flag says that no clause became false. -/
def decide (o : Occurrences) (p : Progress) (var : Nat) (value : Bool) : Progress × Bool :=
  let ⟨counters, effort⟩ := p
  let (counters, sound) := counters.assign o var value
  (⟨counters,
    { effort with
      decisions := effort.decisions + 1
      conflicts := if sound then effort.conflicts else effort.conflicts + 1 }⟩, sound)

/-- Takes the value of a variable away to try the other one. -/
def release (o : Occurrences) (p : Progress) (var : Nat) : Progress :=
  let ⟨counters, effort⟩ := p
  ⟨counters.unassign o var, effort⟩

/-- Takes the value of a variable away after both values failed. -/
def giveUp (o : Occurrences) (p : Progress) (var : Nat) : Progress :=
  let ⟨counters, effort⟩ := p
  ⟨counters.unassign o var, { effort with backtracks := effort.backtracks + 1 }⟩

end Progress

/-- Goes back along a trail of the given length to the newest decision that is true and can be flipped:
decisions that are false have failed on both sides and are taken off. The trail that is left, with its
length, has the flipped decision on top; without one, only the progress is left. -/
def retreat (o : Occurrences) :
    (length : Nat) → List Decision → Progress → Option (Nat × List Decision) × Progress
  | _, [], p => (none, p)
  | length, ⟨var, false⟩ :: rest, p => retreat o (length - 1) rest (p.giveUp o var)
  | length, ⟨var, true⟩ :: rest, p =>
    -- The other side is tried at once. If it fails too, the search goes on further back.
    match (p.release o var).decide o var false with
    | (p, true) => (some (length, ⟨var, false⟩ :: rest), p)
    | (p, false) => retreat o (length - 1) rest (p.giveUp o var)

/-- Going back leaves a trail of the length that it reports. -/
theorem length_of_retreat {o : Occurrences} {length n : Nat} {trail left : List Decision}
    {p p' : Progress} (hlength : trail.length = length)
    (h : retreat o length trail p = (some (n, left), p')) : left.length = n := by
  fun_induction retreat o length trail p with
  | case1 => simp at h
  | case2 length var rest p ih =>
    simp only [List.length_cons] at hlength
    exact ih (by omega) h
  | case3 length var rest p q hq =>
    obtain ⟨⟨rfl, rfl⟩, rfl⟩ := by simpa using h
    exact hlength
  | case4 length var rest p q hq ih =>
    simp only [List.length_cons] at hlength
    exact ih (by omega) h

/-! ### The end of the walk -/

/-- The number of strings of at most `depth` truth values, the empty one included. -/
def strings : (depth : Nat) → Nat
  | 0 => 1
  | depth + 1 => 1 + (strings depth + strings depth)

/-- The strings of truth values on the false sides of the decisions of a trail that are true. -/
def pending (numVars : Nat) : List Decision → Nat
  | [] => 0
  | ⟨_, true⟩ :: rest => strings (numVars - rest.length - 1) + pending numVars rest
  | ⟨_, false⟩ :: rest => pending numVars rest

/-- The number of strings of at most `numVars` truth values that come after the position of a trail in
a depth-first walk that takes true before false: those below it, and the pending ones. -/
def ahead (numVars : Nat) (trail : List Decision) : Nat :=
  (strings (numVars - trail.length) - 1) + pending numVars trail

/-- There is a node at every depth. -/
theorem strings_pos (depth : Nat) : 0 < strings depth := by
  cases depth <;> simp only [strings] <;> omega

/-- A position above the last variable, its true side and its false side. -/
theorem strings_below {numVars k : Nat} (h : k < numVars) :
    strings (numVars - k) = 1 + (strings (numVars - k - 1) + strings (numVars - k - 1)) := by
  rw [show numVars - k = (numVars - k - 1) + 1 by omega]
  rfl

/-- Going back leads to a position after all the strings that were not pending. -/
theorem ahead_lt_pending_of_retreat {numVars length n : Nat} {o : Occurrences}
    {trail left : List Decision} {p p' : Progress} (hlength : trail.length ≤ numVars)
    (h : retreat o length trail p = (some (n, left), p')) :
    ahead numVars left < pending numVars trail := by
  -- A level whose false side was tried has nothing pending. At the first other one the search turns, and
  -- its false side is no longer pending.
  fun_induction retreat o length trail p with
  | case1 => simp at h
  | case2 length var rest p ih =>
    simp only [List.length_cons] at hlength
    exact ih (by omega) h
  | case3 length var rest p q hq =>
    simp only [List.length_cons] at hlength
    obtain ⟨⟨rfl, rfl⟩, rfl⟩ := by simpa using h
    have := strings_pos (numVars - rest.length - 1)
    simp only [ahead, pending, List.length_cons, Nat.sub_add_eq]
    omega
  | case4 length var rest p q hq ih =>
    simp only [List.length_cons] at hlength
    have := ih (by omega) h
    simp only [pending]
    omega

/-- Turning to the other value leaves no more nodes than there were. -/
theorem pending_lt_ahead {numVars var : Nat} {trail : List Decision}
    (h : trail.length < numVars) : pending numVars (⟨var, true⟩ :: trail) ≤ ahead numVars trail := by
  have := strings_below h
  simp only [ahead, pending]
  omega

/-- Going deeper leaves fewer nodes. -/
theorem ahead_push_lt {numVars var : Nat} {trail : List Decision}
    (h : trail.length < numVars) :
    ahead numVars (⟨var, true⟩ :: trail) < ahead numVars trail := by
  have := strings_below h
  have := strings_pos (numVars - trail.length - 1)
  simp only [ahead, pending, List.length_cons, Nat.sub_add_eq]
  omega

/-- Walks on from a trail of the given length: while a clause is not yet true and a variable is left,
the next variable is tried true, and the walk goes back if that makes a clause false. The answer is the
trail under which the walk stopped, or nothing if it went back beyond the first variable. -/
def walk (o : Occurrences) (numVars length : Nat) (trail : List Decision)
    (hlength : trail.length = length) (p : Progress) : Option (List Decision) × Progress :=
  if p.counters.allSatisfied then (some trail, p)
  else if _h : length < numVars then
    let var := length + 1
    match p.decide o var true with
    | (p, true) => walk o numVars var (⟨var, true⟩ :: trail) (congrArg (· + 1) hlength) p
    | (p, false) =>
      match hback : retreat o var (⟨var, true⟩ :: trail) p with
      | (none, p) => (none, p)
      | (some (n, left), p) =>
        walk o numVars n left (length_of_retreat (congrArg (· + 1) hlength) hback) p
  else (some trail, p)
termination_by ahead numVars trail
decreasing_by
  · exact ahead_push_lt (by omega)
  · exact Nat.lt_of_lt_of_le (ahead_lt_pending_of_retreat (by simp only [List.length_cons]; omega) hback)
      (pending_lt_ahead (by omega))

/-- The walk from the empty trail. -/
def run (f : Formula) : Option (List Decision) × Progress :=
  walk (.ofClauses f.numVars f.clauses) f.numVars 0 [] rfl
    { counters := .blank f.numVars f.clauses.length
      effort := ⟨0, 0, 0⟩ }

end VennDiagram.Search

namespace VennDiagram.Formula

/-- Decides a formula. An empty clause settles it without a search. A variable that the search did not
need is false in the model. -/
def decide (f : Formula) : Result :=
  if f.clauses.any List.isEmpty then
    ⟨.unsat, ⟨0, 0, 0⟩⟩
  else
    match Search.run f with
    | (none, p) => ⟨.unsat, p.effort⟩
    | (some _, p) =>
      let value (i : Nat) := p.counters.value? (i + 1) == some true
      ⟨.sat ((List.range f.numVars).map value).toArray, p.effort⟩

end VennDiagram.Formula
