import VennDiagram.Proofs.Formula.Counters
import VennDiagram.Proofs.Formula.Exploration

/-!
# `VennDiagram.Proofs.Formula.Walk`: the walk follows the recursion

`Search.walk` keeps a trail of decisions and counters, and goes back along the trail; `Search.explore`
calls itself for each branch and evaluates every clause at every node. They are the same search:

* The walk stands at nodes only. `trailOf` is the trail of a node, and `standing` the progress that belongs
  to it, with the counters of the node's assignment.
* `fromNode` is the rest of a walk from a node at which no clause is false, and `fromFailure` the rest of
  a walk from a node below which everything failed. `fromNode_of_open`, `fromFailure_false` and
  `fromFailure_true` are their steps: into the true branch, out of a false branch, and from a true branch
  over to the false one.
* `visit_eq`: visiting a node comes to the same as exploring it and going on, with the counts of the
  exploration added to the effort.
* `run_eq`: a run from the empty trail ends as the exploration of the empty node does.
-/

set_option autoImplicit false

namespace VennDiagram

namespace Effort

instance : Add Effort where
  add a b := ⟨a.decisions + b.decisions, a.conflicts + b.conflicts, a.backtracks + b.backtracks⟩

/-- Counters are added one by one. -/
theorem mk_add_mk (d d' c c' b b' : Nat) :
    (⟨d, c, b⟩ + ⟨d', c', b'⟩ : Effort) = ⟨d + d', c + c', b + b'⟩ := rfl

/-- Doing nothing more costs nothing. -/
theorem add_zero (e : Effort) : e + ⟨0, 0, 0⟩ = e := rfl

/-- Having done nothing costs nothing. -/
theorem zero_add (e : Effort) : ⟨0, 0, 0⟩ + e = e := by
  obtain ⟨d, c, b⟩ := e
  simp [mk_add_mk]

/-- Efforts one after the other add up, however they are put together. -/
theorem add_assoc (a b c : Effort) : a + b + c = a + (b + c) := by
  obtain ⟨_, _, _⟩ := a
  obtain ⟨_, _, _⟩ := b
  obtain ⟨_, _, _⟩ := c
  simp [mk_add_mk, Nat.add_assoc]

end Effort

namespace Search

/-- The effort of entering a node. -/
def entering (clauses : List Clause) (node : List Bool) : Effort :=
  ⟨1, if (Assignment.ofList node).refutes clauses then 1 else 0, 0⟩

/-- The effort of giving up a node. -/
def givingUp : Effort := ⟨0, 0, 1⟩

/-! ### Where the walk stands -/

/-- The trail of a node: the newest decision first. -/
def trailOf (node : List Bool) : List Decision :=
  ((node.zipIdx 1).map fun (value, var) => ⟨var, value⟩).reverse

/-- The last value of a node is the first entry of its trail. -/
theorem trailOf_append_singleton (node : List Bool) (value : Bool) :
    trailOf (node ++ [value]) = ⟨node.length + 1, value⟩ :: trailOf node := by
  simp [trailOf, List.zipIdx_append, Nat.add_comm]

/-- A trail is as long as its node. -/
@[simp] theorem length_trailOf (node : List Bool) : (trailOf node).length = node.length := by
  simp [trailOf]

/-- The progress of a walk that stands at a node. -/
def standing (f : Formula) (node : List Bool) (e : Effort) : Progress :=
  ⟨.under f.numVars f.clauses (Assignment.ofList node), e⟩

variable {f : Formula} {node good : List Bool} {e : Effort}

/-- Trying a value leads into a branch. -/
theorem decide_standing (hroom : node.length < f.numVars)
    (hsound : (Assignment.ofList node).refutes f.clauses = false) (value : Bool) :
    (standing f node e).decide (.ofClauses f.numVars f.clauses) (node.length + 1) value
      = (standing f (node ++ [value]) (e + entering f.clauses (node ++ [value])),
          !(Assignment.ofList (node ++ [value])).refutes f.clauses) := by
  have hfree := Assignment.ofList_length_add_one node
  have hstate := Counters.assign_under f.clauses hroom hfree value
  have hflag := Counters.assign_under_snd hroom hfree value hsound
  rw [← Assignment.ofList_append_singleton] at hstate hflag
  simp only [Progress.decide, standing, hstate, hflag, entering]
  cases (Assignment.ofList (node ++ [value])).refutes f.clauses <;> rfl

/-- Taking the newest value away leads back out of a branch. -/
theorem unassign_standing (hroom : node.length < f.numVars) (value : Bool) :
    (standing f (node ++ [value]) e).counters.unassign (.ofClauses f.numVars f.clauses)
        (node.length + 1)
      = (standing f node e).counters := by
  rw [standing, Assignment.ofList_append_singleton]
  exact Counters.unassign_under hroom (Assignment.ofList_length_add_one node) value

/-- Releasing the last variable of a node goes back to the node above it, with nothing counted. -/
theorem release_standing (hroom : node.length < f.numVars) (value : Bool) :
    (standing f (node ++ [value]) e).release (.ofClauses f.numVars f.clauses) (node.length + 1)
      = standing f node e :=
  congrArg (Progress.mk · e) (unassign_standing (e := e) hroom value)

/-- Giving it up goes back too, and counts what giving up costs. -/
theorem giveUp_standing (hroom : node.length < f.numVars) (value : Bool) :
    (standing f (node ++ [value]) e).giveUp (.ofClauses f.numVars f.clauses) (node.length + 1)
      = standing f node (e + givingUp) :=
  congrArg (Progress.mk · (e + givingUp)) (unassign_standing (e := e) hroom value)

/-! ### The rest of a walk -/

/-- The walk from a trail, whose length is known. -/
def walkFrom (o : Occurrences) (numVars : Nat) (trail : List Decision) (p : Progress) :
    Option (List Decision) × Progress :=
  walk o numVars trail.length trail rfl p

/-- Goes on after a retreat, if it left a trail. -/
def resume (o : Occurrences) (numVars : Nat) :
    Option (Nat × List Decision) × Progress → Option (List Decision) × Progress
  | (none, p) => (none, p)
  | (some (_, left), p) => walkFrom o numVars left p

/-- A step of the walk. -/
theorem walkFrom_eq (o : Occurrences) (numVars : Nat) (trail : List Decision) (p : Progress) :
    walkFrom o numVars trail p
      = if p.counters.allSatisfied then (some trail, p)
        else if trail.length < numVars then
          match p.decide o (trail.length + 1) true with
          | (p, true) => walkFrom o numVars (⟨trail.length + 1, true⟩ :: trail) p
          | (p, false) =>
            resume o numVars (retreat o (trail.length + 1) (⟨trail.length + 1, true⟩ :: trail) p)
        else (some trail, p) := by
  rw [walkFrom, walk]
  split
  · rfl
  · split
    · dsimp only
      cases hdecide : p.decide o (trail.length + 1) true with
      | mk q sound =>
        cases sound with
        | true => rfl
        -- After a clash, the search goes on from where retreating ends, if it does not end it.
        | false =>
          dsimp only
          split
          · rename_i hback
            rw [hback, resume]
          · rename_i n left q' hback
            have hlength : (⟨trail.length + 1, true⟩ :: trail : List Decision).length
                = trail.length + 1 := rfl
            obtain rfl : left.length = n := length_of_retreat hlength hback
            exact (congrArg (resume o numVars) hback).symm
    · rfl

variable (f)

/-- The rest of a walk from a node. -/
def fromNode (node : List Bool) (e : Effort) : Option (List Decision) × Progress :=
  walkFrom (.ofClauses f.numVars f.clauses) f.numVars (trailOf node) (standing f node e)

/-- The rest of a walk from a node below which everything failed. -/
def fromFailure (node : List Bool) (e : Effort) : Option (List Decision) × Progress :=
  resume (.ofClauses f.numVars f.clauses) f.numVars
    (retreat (.ofClauses f.numVars f.clauses) (trailOf node).length (trailOf node)
      (standing f node e))

/-- The rest of a walk from a node that was just entered. -/
def visit (node : List Bool) (e : Effort) : Option (List Decision) × Progress :=
  if (Assignment.ofList node).refutes f.clauses then fromFailure f node e else fromNode f node e

/-- The rest of a walk after a node has been explored. -/
def after (node : List Bool) (x : Exploration) (e : Effort) : Option (List Decision) × Progress :=
  match x.found with
  | some good => (some (trailOf good), standing f good (e + x.effort f.clauses))
  | none => fromFailure f node (e + x.effort f.clauses)

variable {f}

/-- A walk that failed at the first node is over. -/
theorem fromFailure_nil : fromFailure f [] e = (none, standing f [] e) := rfl

/-- Behind a false branch nothing is left of a node. -/
theorem fromFailure_false (hroom : node.length < f.numVars) :
    fromFailure f (node ++ [false]) e = fromFailure f node (e + givingUp) := by
  rw [fromFailure, trailOf_append_singleton, retreat, giveUp_standing hroom, List.length_cons,
    Nat.add_sub_cancel, fromFailure]

/-- Behind a true branch comes the false one. -/
theorem fromFailure_true (hroom : node.length < f.numVars)
    (hsound : (Assignment.ofList node).refutes f.clauses = false) :
    fromFailure f (node ++ [true]) e
      = visit f (node ++ [false]) (e + entering f.clauses (node ++ [false])) := by
  rw [fromFailure, trailOf_append_singleton, retreat, release_standing hroom,
    decide_standing hroom hsound, visit]
  cases (Assignment.ofList (node ++ [false])).refutes f.clauses with
  | true =>
    -- The retreat does not stop at the flipped decision, but takes it off as well.
    rw [if_pos rfl, fromFailure_false hroom, fromFailure, ← giveUp_standing hroom false]
    rfl
  | false =>
    rw [if_neg Bool.false_ne_true, fromNode, trailOf_append_singleton]
    rfl

/-- A walk goes on into the true branch of a node at which it does not stop. -/
theorem fromNode_of_open (hroom : node.length < f.numVars)
    (hsound : (Assignment.ofList node).refutes f.clauses = false)
    (hopen : (Assignment.ofList node).satisfies f.clauses = false) :
    fromNode f node e = visit f (node ++ [true]) (e + entering f.clauses (node ++ [true])) := by
  have hstop : (standing f node e).counters.allSatisfied = false :=
    Counters.allSatisfied_under.trans hopen
  rw [fromNode, walkFrom_eq, hstop, if_neg Bool.false_ne_true, length_trailOf, if_pos hroom,
    decide_standing hroom hsound, visit]
  cases (Assignment.ofList (node ++ [true])).refutes f.clauses with
  | true =>
    simp only [Bool.not_true, if_true, fromFailure, trailOf_append_singleton, List.length_cons,
      length_trailOf]
  | false =>
    simp only [Bool.not_false, Bool.false_eq_true, if_false, fromNode, trailOf_append_singleton]

/-- A walk stops at a node under which all clauses are true, or all variables have values. -/
theorem fromNode_of_stop
    (hstop : (Assignment.ofList node).satisfies f.clauses = true ∨ f.numVars ≤ node.length) :
    fromNode f node e = (some (trailOf node), standing f node e) := by
  have hcounters : (standing f node e).counters.allSatisfied
      = (Assignment.ofList node).satisfies f.clauses := Counters.allSatisfied_under
  rw [fromNode, walkFrom_eq, hcounters]
  rcases hstop with hsatisfies | hfull
  · rw [if_pos hsatisfies]
  · rw [length_trailOf, if_neg (Nat.not_lt.mpr hfull), ite_self]

/-! ### The walk and the recursion -/

/-- Where the exploration below a node finds something, the walk ends there with its effort. -/
theorem after_of_found {x : Exploration} (h : x.found = some good) :
    after f node x e = (some (trailOf good), standing f good (e + x.effort f.clauses)) := by
  rw [after, h]

/-- Where it finds nothing, the walk goes on as after a failure, with its effort. -/
theorem after_of_none {x : Exploration} (h : x.found = none) :
    after f node x e = fromFailure f node (e + x.effort f.clauses) := by
  rw [after, h]

/-- The effort of an exploration that ended in the true branch. -/
theorem effort_of_yes (clauses : List Clause) (node good : List Bool) (yes : Exploration) :
    Exploration.effort clauses
        ⟨some good, (node ++ [true]) :: yes.entered, yes.exhausted⟩
      = entering clauses (node ++ [true]) + yes.effort clauses := by
  simp [Exploration.effort, entering, Effort.mk_add_mk, List.countP_cons, Nat.add_comm]

/-- The effort of an exploration that went into both branches. -/
theorem effort_of_both (clauses : List Clause) (node : List Bool) (yes no : Exploration)
    (found : Option (List Bool)) :
    Exploration.effort clauses
        { found
          entered := (node ++ [true]) :: yes.entered ++ (node ++ [false]) :: no.entered
          exhausted := yes.exhausted ++ no.exhausted ++ if found.isNone then [node] else [] }
      = entering clauses (node ++ [true]) + yes.effort clauses
        + (entering clauses (node ++ [false]) + no.effort clauses)
        + (if found.isNone then givingUp else ⟨0, 0, 0⟩) := by
  cases found.isNone <;>
    simp [Exploration.effort, entering, givingUp, Effort.mk_add_mk, List.countP_cons] <;> omega

/-- A node at which a clause is false is left at once. -/
theorem visit_of_refutes {left : Nat} (hrefutes : (Assignment.ofList node).refutes f.clauses = true) :
    visit f node e = after f node (explore f.clauses left node) e := by
  rw [visit, if_pos hrefutes, explore_of_refutes hrefutes, after_of_none rfl]
  rfl

/-- A good node ends the walk. -/
theorem visit_of_good {x : Exploration}
    (hsound : (Assignment.ofList node).refutes f.clauses = false)
    (hstop : (Assignment.ofList node).satisfies f.clauses = true ∨ f.numVars ≤ node.length)
    (hx : x = ⟨some node, [], []⟩) : visit f node e = after f node x e := by
  rw [visit, hsound, if_neg Bool.false_ne_true, fromNode_of_stop hstop, hx, after_of_found rfl]
  rfl

/-- Visiting a node comes to the same as exploring it and going on from there. The induction is on the
number of variables without a value; the true branch is visited from the node, and the false branch by
the retreat from the true one. -/
theorem visit_eq {left : Nat} (hleft : node.length + left = f.numVars) :
    visit f node e = after f node (explore f.clauses left node) e := by
  induction left generalizing node e with
  | zero =>
    cases hrefutes : (Assignment.ofList node).refutes f.clauses with
    | true => exact visit_of_refutes hrefutes
    | false =>
      refine visit_of_good hrefutes (Or.inr (by omega)) ?_
      rw [explore, hrefutes, if_neg Bool.false_ne_true]
  | succ left ih =>
    have hroom : node.length < f.numVars := by omega
    have hbranch : ∀ value : Bool, (node ++ [value]).length + left = f.numVars := by
      intro value
      rw [List.length_append, List.length_singleton]
      omega
    cases hrefutes : (Assignment.ofList node).refutes f.clauses with
    | true => exact visit_of_refutes hrefutes
    | false =>
      cases hsatisfies : (Assignment.ofList node).satisfies f.clauses with
      | true => exact visit_of_good hrefutes (Or.inl hsatisfies) (explore_of_satisfies hsatisfies)
      | false =>
        rw [visit, hrefutes, if_neg Bool.false_ne_true, fromNode_of_open hroom hrefutes hsatisfies,
          ih (hbranch true), explore, hrefutes, if_neg Bool.false_ne_true, hsatisfies,
          if_neg Bool.false_ne_true]
        cases hyes : (explore f.clauses left (node ++ [true])).found with
        | some good =>
          simp only [hyes]
          rw [after_of_found hyes, after_of_found rfl, effort_of_yes, Effort.add_assoc]
        | none =>
          -- The retreat that follows flips the decision, and so enters the false branch.
          simp only [hyes]
          rw [after_of_none hyes, fromFailure_true hroom hrefutes, ih (hbranch false)]
          cases hno : (explore f.clauses left (node ++ [false])).found with
          | some good =>
            rw [after_of_found hno, after_of_found rfl, effort_of_both]
            simp only [Option.isNone_some, Bool.false_eq_true, if_false, Effort.add_zero,
              Effort.add_assoc]
          | none =>
            -- Both branches failed: the node is given up, which is the last count of the exploration.
            rw [after_of_none hno, fromFailure_false hroom, after_of_none rfl, effort_of_both]
            simp only [Option.isNone_none, if_true, Effort.add_assoc]

/-- A run ends as the exploration of the node without values does. -/
theorem run_eq (hsound : (Assignment.ofList []).refutes f.clauses = false) :
    run f = after f [] (explore f.clauses f.numVars []) ⟨0, 0, 0⟩ := by
  rw [← visit_eq (Nat.zero_add f.numVars), visit, hsound, if_neg Bool.false_ne_true, fromNode,
    standing, ← Counters.blank_eq_under]
  rfl

end Search
end VennDiagram
