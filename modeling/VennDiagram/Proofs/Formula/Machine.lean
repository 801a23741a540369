import Mathlib.Order.RelClasses
import VennDiagram.Proofs.Formula.Walk

/-!
# `VennDiagram.Proofs.Formula.Machine`: the search, one operation at a time

`Search.walk` and `Search.retreat` are two loops, one inside the other. This module takes them apart. A
`State` is a place between two operations on the counters, and a `Step` makes at most one operation: it
gives a variable a value, or takes the value of a variable away. `Reached` says which states a search
gets to, and lists the nodes that it tried on the way.

* `Reached.rest_eq`: the rest of the search in a state that is reached comes to the same as the whole run.
  So these are the states of the run.
* `Step.tries_add_remaining_le`: `State.remaining` counts the strings of truth values that a depth-first
  walk has not passed. Each try passes one of them, and no step brings one back.
* `wellFounded_step`: no sequence of steps goes on for ever, from whatever state. Steps that pass no
  string go from the outer loop to a try, or shorten the trail in the inner loop.
* `reached_run`: a search gets to the end of its run.
-/

set_option autoImplicit false

namespace VennDiagram.Search

/-! ### Nodes of trails -/

/-- The node of a trail: its values, the oldest first. -/
def nodeOf (trail : List Decision) : List Bool := (trail.map Decision.value).reverse

/-- The newest decision is the last value of the node. -/
@[simp] theorem nodeOf_cons (d : Decision) (trail : List Decision) :
    nodeOf (d :: trail) = nodeOf trail ++ [d.value] := by
  simp [nodeOf]

/-- The trail of a node is about the first variables, the newest decision about the last of them. -/
theorem map_var_trailOf (node : List Bool) :
    ((trailOf node).map Decision.var).reverse = List.range' 1 node.length := by
  rw [trailOf, List.map_reverse, List.reverse_reverse, List.map_map]
  exact List.zipIdx_map_snd 1 node

/-! ### States and steps -/

/-- Where a search stands between two operations on the counters. -/
inductive State where
  /-- At the condition of the outer loop. -/
  | onward (trail : List Decision) (p : Progress)
  /-- About to make a decision, on top of the trail. -/
  | trying (d : Decision) (trail : List Decision) (p : Progress)
  /-- At the condition of the inner loop: the newest decision has failed. -/
  | back (trail : List Decision) (p : Progress)
  /-- At the end, with the trail of a model or without one. -/
  | stopped (answer : Option (List Decision)) (p : Progress)

/-- The start of a search. -/
def State.start (f : Formula) : State :=
  .onward []
    { counters := .blank f.numVars f.clauses.length
      effort := ⟨0, 0, 0⟩ }

/-- The counters and the effort in a state. -/
def State.progress : State → Progress
  | .onward _ p => p
  | .trying _ _ p => p
  | .back _ p => p
  | .stopped _ p => p

/-- The node that a value is tried for in a state, if there is one: the values in force, and the new
one. -/
def State.tries : State → List (List Bool)
  | .trying d trail _ => [nodeOf (d :: trail)]
  | _ => []

/-- The steps of a search. -/
inductive Step (f : Formula) : State → State → Prop where
  /-- All clauses are true, or all variables have values. -/
  | finish {trail : List Decision} {p : Progress}
      (hstop : p.counters.allSatisfied = true ∨ f.numVars ≤ trail.length) :
      Step f (.onward trail p) (.stopped (some trail) p)
  /-- The next variable is chosen, and true comes first. -/
  | choose {trail : List Decision} {p : Progress}
      (hopen : p.counters.allSatisfied = false) (hroom : trail.length < f.numVars) :
      Step f (.onward trail p) (.trying ⟨trail.length + 1, true⟩ trail p)
  /-- The value makes no clause false. -/
  | enter {d : Decision} {trail : List Decision} {p : Progress}
      (hflag : (p.decide (.ofClauses f.numVars f.clauses) d.var d.value).2 = true) :
      Step f (.trying d trail p)
        (.onward (d :: trail) (p.decide (.ofClauses f.numVars f.clauses) d.var d.value).1)
  /-- The value makes a clause false. -/
  | clash {d : Decision} {trail : List Decision} {p : Progress}
      (hflag : (p.decide (.ofClauses f.numVars f.clauses) d.var d.value).2 = false) :
      Step f (.trying d trail p)
        (.back (d :: trail) (p.decide (.ofClauses f.numVars f.clauses) d.var d.value).1)
  /-- True has failed, and false comes next. -/
  | flip {var : Nat} {trail : List Decision} {p : Progress} :
      Step f (.back (⟨var, true⟩ :: trail) p)
        (.trying ⟨var, false⟩ trail (p.release (.ofClauses f.numVars f.clauses) var))
  /-- Both values have failed. -/
  | giveUp {var : Nat} {trail : List Decision} {p : Progress} :
      Step f (.back (⟨var, false⟩ :: trail) p)
        (.back trail (p.giveUp (.ofClauses f.numVars f.clauses) var))
  /-- There is nothing left to flip. -/
  | fail {p : Progress} : Step f (.back [] p) (.stopped none p)

/-- The search of a formula gets to a state, and tries the listed nodes on the way, in this order. -/
inductive Reached (f : Formula) : List (List Bool) → State → Prop where
  | start : Reached f [] (.start f)
  | step {tried : List (List Bool)} {s s' : State} (hs : Reached f tried s) (hstep : Step f s s') :
      Reached f (tried ++ s.tries) s'

variable {f : Formula} {s s' : State} {tried : List (List Bool)}

/-- Only at the end there is no step. -/
theorem stopped_or_exists_step (f : Formula) (s : State) :
    (∃ answer p, s = .stopped answer p) ∨ ∃ s', Step f s s' := by
  cases s with
  | stopped answer p => exact Or.inl ⟨answer, p, rfl⟩
  | onward trail p =>
    refine Or.inr ?_
    by_cases hroom : trail.length < f.numVars
    · cases hopen : p.counters.allSatisfied with
      | true => exact ⟨_, .finish (Or.inl hopen)⟩
      | false => exact ⟨_, .choose hopen hroom⟩
    · exact ⟨_, .finish (Or.inr (Nat.le_of_not_lt hroom))⟩
  | trying d trail p =>
    refine Or.inr ?_
    cases hflag : (p.decide (.ofClauses f.numVars f.clauses) d.var d.value).2 with
    | true => exact ⟨_, .enter hflag⟩
    | false => exact ⟨_, .clash hflag⟩
  | back trail p =>
    refine Or.inr ?_
    match trail with
    | [] => exact ⟨_, .fail⟩
    | ⟨var, true⟩ :: rest => exact ⟨_, .flip⟩
    | ⟨var, false⟩ :: rest => exact ⟨_, .giveUp⟩

/-! ### The states of a run -/

/-- What the search does after a decision was tried on top of a trail. -/
def afterTry (o : Occurrences) (numVars : Nat) (d : Decision) (trail : List Decision)
    (result : Progress × Bool) : Option (List Decision) × Progress :=
  if result.2 then walkFrom o numVars (d :: trail) result.1
  else resume o numVars (retreat o (trail.length + 1) (d :: trail) result.1)

/-- What the search does from a state on. -/
def State.rest (f : Formula) : State → Option (List Decision) × Progress
  | .onward trail p => walkFrom (.ofClauses f.numVars f.clauses) f.numVars trail p
  | .trying d trail p =>
    afterTry (.ofClauses f.numVars f.clauses) f.numVars d trail
      (p.decide (.ofClauses f.numVars f.clauses) d.var d.value)
  | .back trail p =>
    resume (.ofClauses f.numVars f.clauses) f.numVars
      (retreat (.ofClauses f.numVars f.clauses) trail.length trail p)
  | .stopped answer p => (answer, p)

/-- A step is a part of what is left to do. -/
theorem Step.rest_eq (h : Step f s s') : s'.rest f = s.rest f := by
  cases h with
  | @finish trail p hstop =>
    show (some trail, p) = walkFrom _ f.numVars trail p
    rw [walkFrom_eq]
    rcases hstop with hsatisfied | hfull
    · rw [if_pos hsatisfied]
    · rw [if_neg (Nat.not_lt.mpr hfull), ite_self]
  | @choose trail p hopen hroom =>
    show afterTry _ _ _ trail (p.decide _ (trail.length + 1) true) = walkFrom _ f.numVars trail p
    rw [walkFrom_eq, hopen, if_neg Bool.false_ne_true, if_pos hroom]
    cases p.decide (.ofClauses f.numVars f.clauses) (trail.length + 1) true with
    | mk q flag => cases flag <;> rfl
  | @enter d trail p hflag =>
    show walkFrom _ _ (d :: trail) _ = afterTry _ _ d trail (p.decide _ d.var d.value)
    rw [afterTry, if_pos hflag]
  | @clash d trail p hflag =>
    show resume _ _ (retreat _ (trail.length + 1) (d :: trail) _)
      = afterTry _ _ d trail (p.decide _ d.var d.value)
    rw [afterTry, hflag, if_neg Bool.false_ne_true]
  | @flip var trail p =>
    show afterTry _ _ ⟨var, false⟩ trail ((p.release _ var).decide _ var false)
      = resume _ _ (retreat _ (trail.length + 1) (⟨var, true⟩ :: trail) p)
    rw [retreat]
    -- A false value that fails at once is given up by `retreat` without a step of its own.
    cases (p.release (.ofClauses f.numVars f.clauses) var).decide
        (.ofClauses f.numVars f.clauses) var false with
    | mk q flag => cases flag <;> rfl
  | giveUp => rfl
  | fail => rfl

/-- The search goes through the states of its run. -/
theorem Reached.rest_eq (h : Reached f tried s) : s.rest f = run f := by
  induction h with
  | start => rfl
  | step _ hstep ih => exact hstep.rest_eq.trans ih

/-! ### The end of the steps -/

/-- The number of strings of at most `numVars` truth values that a depth-first walk has not passed. The
string that is about to be tried is one of them. -/
def State.remaining (numVars : Nat) : State → Nat
  | .onward trail _ => ahead numVars trail
  | .trying d trail _ => strings (numVars - trail.length - 1) + pending numVars (d :: trail)
  | .back trail _ => pending numVars trail
  | .stopped _ _ => 0

/-- A bound on the steps that follow before the next value is tried. -/
def State.detour : State → Nat
  | .onward _ _ => 1
  | .trying _ _ _ => 0
  | .back trail _ => trail.length + 1
  | .stopped _ _ => 0

/-- A try passes a string, and no step brings one back. -/
theorem Step.tries_add_remaining_le (h : Step f s s') :
    s.tries.length + s'.remaining f.numVars ≤ s.remaining f.numVars := by
  -- What remains are the strings that come later. A try takes one away, and a clash also those below it.
  cases h with
  | finish => exact Nat.zero_le _
  | @choose trail p hopen hroom =>
    have hbelow := strings_below hroom
    simp only [State.tries, State.remaining, ahead, pending, List.length_nil]
    omega
  | @enter d trail p hflag =>
    have hpos := strings_pos (f.numVars - trail.length - 1)
    simp only [State.tries, State.remaining, ahead, List.length_cons, List.length_nil,
      Nat.sub_add_eq]
    omega
  | @clash d trail p hflag =>
    have hpos := strings_pos (f.numVars - trail.length - 1)
    simp only [State.tries, State.remaining, List.length_singleton]
    omega
  | flip => simp [State.tries, State.remaining, pending]
  | giveUp => simp [State.tries, State.remaining, pending]
  | fail => exact Nat.zero_le _

/-- Before the next try the detour becomes shorter. -/
theorem Step.detour_lt (h : Step f s s') : s.tries ≠ [] ∨ s'.detour < s.detour := by
  cases h with
  | enter => exact Or.inl (List.cons_ne_nil _ _)
  | clash => exact Or.inl (List.cons_ne_nil _ _)
  | finish => exact Or.inr Nat.zero_lt_one
  | choose => exact Or.inr Nat.zero_lt_one
  | flip => exact Or.inr (Nat.succ_pos _)
  | giveUp => exact Or.inr (Nat.lt_succ_self _)
  | fail => exact Or.inr Nat.zero_lt_one

/-- There is no endless sequence of steps. -/
theorem wellFounded_step (f : Formula) : WellFounded fun s' s => Step f s s' := by
  have hlex : WellFounded (Prod.Lex (· < · : Nat → Nat → Prop) (· < · : Nat → Nat → Prop)) :=
    Nat.lt_wfRel.wf.prod_lex Nat.lt_wfRel.wf
  refine Subrelation.wf ?_ (InvImage.wf (fun s => (s.remaining f.numVars, s.detour)) hlex)
  intro s' s hstep
  -- A step makes a try and has fewer left, or makes none and gets ahead on its way to the next.
  show Prod.Lex _ _ (s'.remaining f.numVars, s'.detour) (s.remaining f.numVars, s.detour)
  have hle := hstep.tries_add_remaining_le
  rcases hstep.detour_lt with htries | hdetour
  · have hpos := List.length_pos_iff.mpr htries
    exact Prod.Lex.left _ _ (by omega)
  · rcases Nat.lt_or_ge (s'.remaining f.numVars) (s.remaining f.numVars) with hlt | hge
    · exact Prod.Lex.left _ _ hlt
    · have heq : s'.remaining f.numVars = s.remaining f.numVars := by omega
      rw [heq]
      exact Prod.Lex.right _ hdetour

/-- From every state that is reached the search gets to the end, and the end is that of the run. -/
theorem Reached.exists_stopped (h : Reached f tried s) :
    ∃ later, Reached f (tried ++ later) (.stopped (run f).1 (run f).2) := by
  -- The induction is on what is left: a step leads to a state from which the claim is known.
  induction s using (wellFounded_step f).induction generalizing tried with
  | _ s ih =>
    rcases stopped_or_exists_step f s with ⟨answer, p, rfl⟩ | ⟨s', hstep⟩
    · refine ⟨[], ?_⟩
      rw [List.append_nil, ← h.rest_eq]
      exact h
    · obtain ⟨later, hlater⟩ := ih s' hstep (h.step hstep)
      rw [List.append_assoc] at hlater
      exact ⟨_, hlater⟩

/-- A search that runs to its end reaches it. -/
theorem reached_run (f : Formula) : ∃ tried, Reached f tried (.stopped (run f).1 (run f).2) :=
  Reached.start.exists_stopped

/-- What has been tried and what has not been passed is at most every string but the empty one. -/
theorem Reached.length_tried_add_remaining_le (h : Reached f tried s) :
    tried.length + s.remaining f.numVars ≤ strings f.numVars - 1 := by
  induction h with
  | start => simp [State.start, State.remaining, ahead, pending]
  | step _ hstep ih =>
    have hle := hstep.tries_add_remaining_le
    rw [List.length_append]
    omega

end VennDiagram.Search
