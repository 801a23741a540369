import VennDiagram.Proofs.Formula.Walk

/-!
# `VennDiagram.Proofs.Formula.Decide`: what deciding a formula answers

`Formula.decide` is the exploration of the node without values (`decide_eq_explore`), for every formula:
clauses may be empty, repeat literals, hold a literal and its negation, or name variables that are not
allocated. From there:

* `decide_sound_complete`: a model gives every variable a value and makes no clause false, and there is no
  model only if every assignment makes some clause false.
* `decide_eq_sat_iff`: which model is answered. Of the lists of values that make no clause false take the
  first, keep as many values as it takes to make every clause true, and set the others to false.

A clause that names a variable beyond `numVars` can stay open under every assignment, and nothing is
said against that: "no clause is false" is what a model is about. A clause over the allocated variables
alone is true under a model.
-/

set_option autoImplicit false

namespace VennDiagram

open Search

namespace Formula

/-- A list of values for all variables under which no clause is false. -/
def Admits (f : Formula) (values : List Bool) : Prop :=
  values.length = f.numVars ∧ (Assignment.ofList values).refutes f.clauses = false

/-- The first of the lists of values under which no clause is false. -/
structure IsFirst (f : Formula) (values : List Bool) : Prop where
  admits : f.Admits values
  earliest : ∀ other, f.Admits other → other = values ∨ Earlier values other

/-- The least number of values that make every clause true, or all of them if no number of values
does. -/
def needed (f : Formula) (values : List Bool) : Nat :=
  ((List.range f.numVars).find? fun k =>
    (Assignment.ofList (values.take k)).satisfies f.clauses).getD f.numVars

variable {f : Formula}

/-- Only an empty clause is false before any variable has a value. -/
theorem refutes_nil (f : Formula) :
    (Assignment.ofList []).refutes f.clauses = f.clauses.any List.isEmpty := by
  have hempty : ∀ c : Clause, c.eval (Assignment.ofList []) = some false ↔ c = [] := by
    intro c
    rw [Clause.eval_eq_some_false_iff, Assignment.ofList_nil]
    simp [Literal.eval, List.eq_nil_iff_forall_not_mem]
  rw [Bool.eq_iff_iff, Assignment.refutes_eq_true_iff]
  simp [hempty]

/-- The values that the search reads off its counters at the end. -/
theorem values_under {node : List Bool} (hnode : node.length ≤ f.numVars) :
    ((List.range f.numVars).map fun i =>
        (Counters.under f.numVars f.clauses (Assignment.ofList node)).value? (i + 1) == some true)
      = node ++ List.replicate (f.numVars - node.length) false := by
  refine List.ext_getElem (by simp; omega) fun i hi hi' => ?_
  have hlt : i < f.numVars := by simpa using hi
  rw [List.getElem_map, List.getElem_range, Counters.value?_under hlt, List.getElem_append]
  by_cases hin : i < node.length
  · simp [Assignment.ofList, hin]
  · simp [Assignment.ofList, hin]

/-- The counters of the walk and the full evaluation of every clause at every node make the same
search. -/
theorem decide_eq_result (f : Formula) :
    f.decide = (explore f.clauses f.numVars []).result f.clauses f.numVars := by
  rw [decide, ← refutes_nil]
  -- An empty clause is noticed before the search; exploring would find the root refuted.
  cases hrefutes : (Assignment.ofList []).refutes f.clauses with
  | true =>
    rw [if_pos rfl, explore_of_refutes hrefutes]
    rfl
  | false =>
    rw [if_neg Bool.false_ne_true, run_eq hrefutes]
    cases hfound : (explore f.clauses f.numVars []).found with
    | none =>
      rw [after_of_none hfound, fromFailure_nil, Effort.zero_add]
      simp [Exploration.result, hfound, standing]
    | some good =>
      have hlength := (explore_found hfound).length_le
      rw [List.length_nil, Nat.zero_add] at hlength
      rw [after_of_found hfound, Effort.zero_add]
      simp only [Exploration.result, hfound, standing, values_under hlength]

/-! ### Models -/

/-- A node that was found, padded with false values, extends the node. -/
theorem extends_padded (node : List Bool) (count : Nat) :
    (Assignment.ofList (node ++ List.replicate count false)).Extends (Assignment.ofList node) :=
  Assignment.extends_ofList (List.prefix_append _ _)

/-- The values that a node stands for make no clause false, whatever values fill it up. -/
theorem refutes_padded {node : List Bool} (hnode : Found f.clauses f.numVars [] node) :
    (Assignment.ofList (node ++ List.replicate (f.numVars - node.length) false)).refutes f.clauses
      = false := by
  rcases hnode.stopped with hsatisfies | hfull
  · exact Assignment.refutes_eq_false_of_satisfies
      (Assignment.satisfies_of_extends (extends_padded _ _) hsatisfies)
  · have hsound := hnode.sound
    rw [filled, hfull, Nat.sub_self] at hsound
    rw [hfull, Nat.sub_self]
    exact hsound

/-- A verdict is a node that was found, or that nothing was found. -/
theorem verdict_decide (f : Formula) :
    (∃ node, Found f.clauses f.numVars [] node ∧
        f.decide.verdict
          = .sat (node ++ List.replicate (f.numVars - node.length) false).toArray) ∨
      f.decide.verdict = .unsat ∧
        ∀ values, values.length = f.numVars → (Assignment.ofList values).refutes f.clauses = true := by
  rw [decide_eq_result]
  cases hfound : (explore f.clauses f.numVars []).found with
  | some node =>
    have hnode := explore_found hfound
    rw [List.length_nil, Nat.zero_add] at hnode
    exact Or.inl ⟨node, hnode, by simp [Exploration.result, hfound]⟩
  | none =>
    refine Or.inr ⟨by simp [Exploration.result, hfound], fun values hlength => ?_⟩
    exact explore_none hfound List.nil_prefix (by simpa using hlength)

/-- Padded with true values, the node that was found is the first list of values without a false
clause. -/
theorem isFirst_filled {node : List Bool} (hnode : Found f.clauses f.numVars [] node) :
    f.IsFirst (filled f.numVars node) where
  admits := ⟨length_filled hnode.length_le, hnode.sound⟩
  earliest other hother := hnode.first other List.nil_prefix hother.1 hother.2

/-- There is one first list of values at most. -/
theorem IsFirst.unique {values other : List Bool} (h : f.IsFirst values) (h' : f.IsFirst other) :
    values = other := by
  rcases h.earliest other h'.admits with heq | hlater
  · exact heq.symm
  · rcases h'.earliest values h.admits with heq | hearlier
    · exact heq
    · exact absurd hlater hearlier.asymm

/-- The search stops as soon as it can. -/
theorem needed_filled {node : List Bool} (hnode : Found f.clauses f.numVars [] node) :
    f.needed (filled f.numVars node) = node.length := by
  have htake : ∀ k, k ≤ node.length → (filled f.numVars node).take k = node.take k := fun k hk => by
    rw [filled, List.take_append_of_le_length hk]
  -- No shorter list of values was good, or the search would have stopped there.
  have hbefore : ∀ k, k < node.length →
      (Assignment.ofList ((filled f.numVars node).take k)).satisfies f.clauses = false :=
    fun k hk => by
      rw [htake k (Nat.le_of_lt hk)]
      refine hnode.unfinished _ List.nil_prefix (List.take_prefix _ _) fun heq => ?_
      have := congrArg List.length heq
      rw [List.length_take] at this
      omega
  rw [needed]
  rcases Nat.lt_or_ge node.length f.numVars with hlt | hge
  · have hstop : (Assignment.ofList ((filled f.numVars node).take node.length)).satisfies f.clauses
        = true := by
      rw [htake _ (Nat.le_refl _), List.take_length]
      exact hnode.stopped.resolve_right (Nat.ne_of_lt hlt)
    have hfind : (List.range f.numVars).find? (fun k =>
        (Assignment.ofList ((filled f.numVars node).take k)).satisfies f.clauses)
          = some node.length := by
      rw [List.find?_range_eq_some]
      exact ⟨hstop, List.mem_range.mpr hlt, fun k hk => by rw [hbefore k hk]; rfl⟩
    rw [hfind, Option.getD_some]
  · have hfull : node.length = f.numVars := Nat.le_antisymm hnode.length_le hge
    have hfind : (List.range f.numVars).find? (fun k =>
        (Assignment.ofList ((filled f.numVars node).take k)).satisfies f.clauses) = none := by
      rw [List.find?_range_eq_none]
      exact fun k hk => by rw [hbefore k (hfull ▸ hk)]; rfl
    rw [hfind, Option.getD_none, hfull]

/-- The model that is answered: the first list of values without a false clause as far as it is needed,
and false beyond. -/
theorem padded_eq {node : List Bool} (hnode : Found f.clauses f.numVars [] node) :
    (filled f.numVars node).take (f.needed (filled f.numVars node))
        ++ List.replicate (f.numVars - f.needed (filled f.numVars node)) false
      = node ++ List.replicate (f.numVars - node.length) false := by
  rw [needed_filled hnode, filled, List.take_append_of_le_length (Nat.le_refl _), List.take_length]

/-! ### Main results -/

/-- Deciding a formula finds what exploring it finds, with false for the variables that were not
reached. The counts are those of the exploration: nodes entered, those of them at which a clause is
false, and nodes both of whose branches failed. An empty clause ends both before a node is entered. -/
theorem decide_eq_explore (f : Formula) :
    (f.decide.verdict = match (explore f.clauses f.numVars []).found with
      | some node => .sat (node ++ List.replicate (f.numVars - node.length) false).toArray
      | none => .unsat) ∧
    f.decide.effort.decisions = (explore f.clauses f.numVars []).entered.length ∧
    f.decide.effort.conflicts = (explore f.clauses f.numVars []).entered.countP
      (fun node => f.clauses.any fun c => c.eval (Assignment.ofList node) = some false) ∧
    f.decide.effort.backtracks = (explore f.clauses f.numVars []).exhausted.length ∧
    ([] ∈ f.clauses → f.decide.effort = ⟨0, 0, 0⟩) := by
  rw [decide_eq_result]
  refine ⟨rfl, rfl, rfl, rfl, fun hempty => ?_⟩
  have hrefutes : (Assignment.ofList []).refutes f.clauses = true := by
    rw [refutes_nil, List.any_eq_true]
    exact ⟨[], hempty, rfl⟩
  rw [explore_of_refutes hrefutes]
  rfl

/-- A model gives values to exactly the allocated variables, makes no clause false, and makes every
clause over them true. There is no model exactly when every assignment of the allocated variables makes
some clause false. -/
theorem decide_sound_complete (f : Formula) :
    (∀ model, f.decide.verdict = .sat model →
      (Assignment.ofList model.toList).Covers f.numVars ∧
      (∀ c ∈ f.clauses, c.eval (Assignment.ofList model.toList) ≠ some false) ∧
      ∀ c ∈ f.clauses, (∀ l ∈ c, 1 ≤ l.var ∧ l.var ≤ f.numVars) →
        c.eval (Assignment.ofList model.toList) = some true) ∧
    (f.decide.verdict = .unsat ↔
      ∀ a : Assignment, a.Covers f.numVars → ∃ c ∈ f.clauses, c.eval a = some false) := by
  rcases verdict_decide f with ⟨node, hnode, hverdict⟩ | ⟨hverdict, hnone⟩
  · have hlength : (node ++ List.replicate (f.numVars - node.length) false).length = f.numVars := by
      have := hnode.length_le
      rw [List.length_append, List.length_replicate]
      omega
    -- The values that were not needed are filled in, and no clause is false with them either.
    have hcovers := Assignment.covers_ofList
      (node ++ List.replicate (f.numVars - node.length) false)
    rw [hlength] at hcovers
    have hsound := Assignment.refutes_eq_false_iff.mp (refutes_padded hnode)
    rw [hverdict]
    refine ⟨fun model hmodel => ?_, by simp, fun hall => ?_⟩
    · obtain rfl : _ = model := Verdict.sat.inj hmodel
      exact ⟨hcovers, hsound, fun c hc hvars =>
        Clause.eval_eq_some_true_of_ne (fun l hl => (hcovers l.var).mpr (hvars l hl)) (hsound c hc)⟩
    · obtain ⟨c, hc, hfalse⟩ := hall _ hcovers
      exact absurd hfalse (hsound c hc)
  · rw [hverdict]
    refine ⟨fun model hmodel => (nomatch hmodel), fun _ a hcovers => ?_, fun _ => rfl⟩
    -- Whatever gives a value to exactly the variables is a list of values.
    obtain ⟨values, hlength, rfl⟩ := Assignment.eq_ofList_of_covers hcovers
    exact Assignment.refutes_eq_true_iff.mp (hnone values hlength)

/-- Which model is answered: the values of the first list without a false clause, as far as they are
needed to make every clause true, and false for all other variables. -/
theorem decide_eq_sat_iff (f : Formula) (model : Array Bool) :
    f.decide.verdict = .sat model ↔
      ∃ values, f.IsFirst values ∧
        model.toList
          = values.take (f.needed values) ++ List.replicate (f.numVars - f.needed values) false := by
  rcases verdict_decide f with ⟨node, hnode, hverdict⟩ | ⟨hverdict, hnone⟩
  · rw [hverdict]
    constructor
    · intro hmodel
      obtain rfl : _ = model := Verdict.sat.inj hmodel
      exact ⟨_, isFirst_filled hnode, (padded_eq hnode).symm⟩
    · rintro ⟨values, hvalues, hmodel⟩
      obtain rfl := (isFirst_filled hnode).unique hvalues
      rw [padded_eq hnode] at hmodel
      rw [← hmodel, Array.toArray_toList]
  · rw [hverdict]
    refine ⟨fun hmodel => (nomatch hmodel), ?_⟩
    rintro ⟨values, hvalues, -⟩
    exact absurd (hnone values hvalues.admits.1) (by simp [hvalues.admits.2])

end Formula
end VennDiagram
