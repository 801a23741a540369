import Mathlib.Data.List.ReduceOption
import VennDiagram.Proofs.Formula.Decide
import VennDiagram.Proofs.Placement.Models

/-!
# `VennDiagram.Proofs.Placement.Least`: deciding an encoding finds the least feasible choice

The numbers of a choice, entity by entity and organizations first, are its vector; entities without
candidates do not show in it. The search prefers low variables and tries true first, and the selectors of
an entity are numbered in the order of its candidates. So the model it finds stands for the feasible
choice whose vector comes first in lexicographic order (`Encodes.decide_cases`), and decoding it gives the
layout of that choice.

* `Encodes.length_node`: the search never stops before all selectors have values, since the last group
  that is reached would have a true selector already and get another one.
* `reduceOption_firstTrue?_lt`: of two assignments that differ first in a selector that only the one makes
  true, that one chooses the smaller vector.
-/

set_option autoImplicit false

namespace VennDiagram

/-- The numbers that are chosen, organizations first, for the entities that have candidates. -/
def Choice.vector (c : Choice) : List Nat := (c.dots ++ c.labels).reduceOption

section
variable {α : Type} [Scalar α]

/-- The feasible choice whose vector comes before those of all others. -/
structure Choice.IsLeast (rules : Rules α) (circles : List (Circle α))
    (dots : List (List (DotCandidate α))) (labels : List (List (LabelCandidate α))) (c : Choice) :
    Prop where
  feasible : c.Feasible rules circles dots labels
  least : ∀ other : Choice, other.Feasible rules circles dots labels → other ≠ c →
    c.vector < other.vector

/-- There is one least feasible choice at most. -/
theorem Choice.IsLeast.unique {rules : Rules α} {circles : List (Circle α)}
    {dots : List (List (DotCandidate α))} {labels : List (List (LabelCandidate α))} {c c' : Choice}
    (h : c.IsLeast rules circles dots labels) (h' : c'.IsLeast rules circles dots labels) : c' = c := by
  by_contra hne
  have hlt := h.least c' h'.feasible hne
  have hgt := h'.least c h.feasible (Ne.symm hne)
  exact List.lt_irrefl _ (List.lt_trans hlt hgt)

end

/-- Where a list of values comes before another one of the same length, they agree up to a variable that
is true in the first list and false in the second. -/
theorem exists_var_of_earlier {p q : List Bool} (h : Earlier p q) (hlength : p.length = q.length) :
    ∃ v, Assignment.ofList p v = some true ∧ Assignment.ofList q v = some false ∧
      ∀ w, w < v → Assignment.ofList p w = Assignment.ofList q w := by
  have hplace : ∃ i : Nat, p[i]? = some true ∧ q[i]? = some false ∧ ∀ j, j < i → p[j]? = q[j]? := by
    induction h with
    | nil => simp at hlength
    | @rel b p b' q hvalues =>
      obtain ⟨rfl, rfl⟩ := hvalues
      exact ⟨0, rfl, rfl, fun j hj => absurd hj (Nat.not_lt_zero j)⟩
    | @cons b p q _ ih =>
      obtain ⟨i, htrue, hfalse, hbefore⟩ := ih (Nat.succ.inj hlength)
      refine ⟨i + 1, htrue, hfalse, fun j hj => ?_⟩
      cases j with
      | zero => rfl
      | succ j => exact hbefore j (Nat.lt_of_succ_lt_succ hj)
  -- Variables are counted from one, places in a list from zero.
  obtain ⟨i, htrue, hfalse, hbefore⟩ := hplace
  refine ⟨i + 1, htrue, hfalse, fun w hw => ?_⟩
  cases w with
  | zero => rfl
  | succ j => exact hbefore j (Nat.lt_of_succ_lt_succ hw)

namespace Encoding

/-! ### Assignments in order, choices in order -/

section
variable {a b : Assignment} {group : List Nat}

/-- What is read off a group depends on its variables only. -/
theorem firstTrue?_congr (h : ∀ v ∈ group, a v = b v) : firstTrue? a group = firstTrue? b group := by
  induction group with
  | nil => rfl
  | cons v rest ih =>
    obtain ⟨hv, hrest⟩ := List.forall_mem_cons.mp h
    have htail : rest.findIdx? (fun v => a v = some true) = rest.findIdx? fun v => b v = some true :=
      ih hrest
    rw [firstTrue?, firstTrue?, List.findIdx?_cons, List.findIdx?_cons, hv, htail]

/-- In a group whose variables increase, let `a` make `v` true and `b` not, and let them agree on the
variables before. Then `a` chooses the smaller number. -/
theorem firstTrue?_lt {v : Nat} (hsorted : group.Pairwise (· < ·)) (hone : ExactlyOne a group)
    (hone' : ExactlyOne b group) (hv : v ∈ group) (htrue : a v = some true) (hfalse : b v ≠ some true)
    (hbefore : ∀ w, w < v → a w = b w) :
    ∃ i j, firstTrue? a group = some i ∧ firstTrue? b group = some j ∧ i < j := by
  have hne : group ≠ [] := List.ne_nil_of_mem hv
  have hreads : ∀ {c : Assignment}, ExactlyOne c group →
      ∃ i, ∃ hi : i < group.length, firstTrue? c group = some i ∧ c group[i] = some true ∧
        ∀ j, ∀ hj : j < i, c group[j] ≠ some true := by
    intro c hc
    cases hfirst : firstTrue? c group with
    | none =>
      have hfits := fits_firstTrue? hc
      rw [hfirst] at hfits
      exact absurd (List.length_eq_zero_iff.mp hfits) hne
    | some i =>
      obtain ⟨hi, htrue, hearlier⟩ := List.findIdx?_eq_some_iff_getElem.mp hfirst
      exact ⟨i, hi, rfl, by simpa using htrue, fun j hj => by simpa using hearlier j hj⟩
  obtain ⟨i, hi, hreadA, htrueA, hearlierA⟩ := hreads hone
  obtain ⟨j, hj, hreadB, htrueB, -⟩ := hreads hone'
  have hvi : group[i] = v := (hone hne).unique ⟨List.getElem_mem hi, htrueA⟩ ⟨hv, htrue⟩
  refine ⟨i, j, hreadA, hreadB, ?_⟩
  rcases Nat.lt_trichotomy i j with hlt | rfl | hgt
  · exact hlt
  · exact absurd (hvi ▸ htrueB) hfalse
  · -- What `b` chooses lies before `v`, so `a` makes it true as well, and would have chosen it.
    have hlt : group[j] < v := hvi ▸ List.pairwise_iff_getElem.mp hsorted j i hj hi hgt
    exact absurd ((hbefore _ hlt).trans htrueB) (hearlierA j hgt)

/-- Of two assignments that differ first in a selector that only `a` makes true, `a` chooses the smaller
numbers. -/
theorem reduceOption_firstTrue?_lt {groups : List (List Nat)} {v : Nat}
    (hsorted : groups.flatten.Pairwise (· < ·)) (hone : ∀ group ∈ groups, ExactlyOne a group)
    (hone' : ∀ group ∈ groups, ExactlyOne b group) (hv : v ∈ groups.flatten)
    (htrue : a v = some true) (hfalse : b v ≠ some true) (hbefore : ∀ w, w < v → a w = b w) :
    (groups.map (firstTrue? a)).reduceOption < (groups.map (firstTrue? b)).reduceOption := by
  induction groups with
  | nil => simp at hv
  | cons group rest ih =>
    rw [List.flatten_cons] at hsorted hv
    obtain ⟨hgroup, hrest, hacross⟩ := List.pairwise_append.mp hsorted
    obtain ⟨hhere, hthere⟩ := List.forall_mem_cons.mp hone
    obtain ⟨hhere', hthere'⟩ := List.forall_mem_cons.mp hone'
    rw [List.map_cons, List.map_cons]
    rcases List.mem_append.mp hv with hv | hv
    · obtain ⟨i, j, hreadA, hreadB, hlt⟩ :=
        firstTrue?_lt hgroup hhere hhere' hv htrue hfalse hbefore
      rw [hreadA, hreadB, List.reduceOption_cons_of_some, List.reduceOption_cons_of_some]
      exact List.cons_lt_cons_iff.mpr (Or.inl hlt)
    · -- All variables of this group come before `v`, so the same is read off it.
      have hsame : firstTrue? a group = firstTrue? b group :=
        firstTrue?_congr fun w hw => hbefore w (hacross w hw v hv)
      have hlt := ih hrest hthere hthere' hv
      rw [hsame]
      cases firstTrue? b group with
      | none => simpa only [List.reduceOption_cons_of_none] using hlt
      | some i =>
        rw [List.reduceOption_cons_of_some, List.reduceOption_cons_of_some]
        exact List.cons_lt_cons_iff.mpr (Or.inr ⟨rfl, hlt⟩)

end

/-! ### The clauses and the search -/

section
variable {α : Type} [Scalar α] {rules : Rules α} {circles : List (Circle α)}
  {dots : List (List (DotCandidate α))} {labels : List (List (LabelCandidate α))} {e : Encoding}
  {model : Array Bool}

/-- The clauses of a group name its variables. -/
theorem mem_of_mem_exactlyOneOf {group : List Nat} {c : Clause} (hc : c ∈ exactlyOneOf group)
    {l : Literal} (hl : l ∈ c) : l.var ∈ group := by
  rw [exactlyOneOf] at hc
  split at hc
  · simp at hc
  rcases List.mem_cons.mp hc with rfl | hc
  · obtain ⟨v, hv, rfl⟩ := List.mem_map.mp hl
    exact hv
  · obtain ⟨p, hp, rfl⟩ := List.mem_map.mp hc
    obtain ⟨hfirst, hsecond⟩ := mem_of_mem_pairs hp
    rcases List.mem_pair.mp hl with rfl | rfl
    · exact hfirst
    · exact hsecond

/-- The clauses of overlapping candidates name the variables of groups. -/
theorem mem_of_mem_conflicts {β : Type} {overlap : β → β → Bool} {groups : List (List Nat)}
    {candidates : List (List β)} {c : Clause}
    (hc : c ∈ conflicts overlap (List.zipWith List.zip groups candidates)) {l : Literal} (hl : l ∈ c) :
    ∃ group ∈ groups, l.var ∈ group := by
  obtain ⟨p, hp, q, hq, r, hr, -, rfl⟩ := mem_conflicts.mp hc
  obtain ⟨hfirst, hsecond⟩ := mem_of_mem_pairs hp
  rcases List.mem_pair.mp hl with rfl | rfl
  · exact fst_mem_of_mem_zipWith hfirst hq
  · exact fst_mem_of_mem_zipWith hsecond hr

/-- The clauses of all three families name selectors only. -/
theorem exists_group_of_mem {β γ : Type} {orgVars labelVars : List (List Nat)}
    {overlap : β → β → Bool} {conflict : γ → γ → Bool} {dots : List (List β)} {texts : List (List γ)}
    {c : Clause}
    (hc : c ∈ (orgVars ++ labelVars).flatMap exactlyOneOf
      ++ conflicts overlap (List.zipWith List.zip orgVars dots)
      ++ conflicts conflict (List.zipWith List.zip labelVars texts))
    {l : Literal} (hl : l ∈ c) : ∃ group ∈ orgVars ++ labelVars, l.var ∈ group := by
  rcases List.mem_append.mp hc with hc | hlabel
  · rcases List.mem_append.mp hc with hchoice | horg
    · obtain ⟨group, hgroup, hc⟩ := List.mem_flatMap.mp hchoice
      exact ⟨group, hgroup, mem_of_mem_exactlyOneOf hc hl⟩
    · obtain ⟨group, hgroup, hv⟩ := mem_of_mem_conflicts horg hl
      exact ⟨group, List.mem_append_left _ hgroup, hv⟩
  · obtain ⟨group, hgroup, hv⟩ := mem_of_mem_conflicts hlabel hl
    exact ⟨group, List.mem_append_right _ hgroup, hv⟩

/-- Every clause of an encoding names selectors only. -/
theorem Encodes.exists_group (h : Encodes rules circles dots labels e) {c : Clause}
    (hc : c ∈ e.formula.clauses) {l : Literal} (hl : l ∈ c) :
    ∃ group ∈ e.orgVars ++ e.labelVars, l.var ∈ group :=
  exists_group_of_mem (h.clauses_eq ▸ hc) hl

/-- All clauses are over the selectors, so "no clause is false" and "every clause is true" are the same
under a list of values for all of them. -/
theorem Encodes.admits_iff (h : Encodes rules circles dots labels e) {values : List Bool} :
    e.formula.Admits values ↔ e.formula.IsModel values.toArray := by
  rw [Formula.Admits, Formula.IsModel, List.size_toArray, Assignment.refutes_eq_false_iff]
  refine and_congr_right fun hlength => forall₂_congr fun c hc => ?_
  have hcovers : (Assignment.ofList values).Covers e.formula.numVars :=
    hlength ▸ Assignment.covers_ofList values
  constructor
  · intro hsound
    refine Clause.eval_eq_some_true_of_ne (fun l hl => ?_) hsound
    obtain ⟨group, hgroup, hv⟩ := h.exists_group hc hl
    exact h.isSome hcovers hgroup hv
  · intro htrue
    simp [htrue]

/-- A model makes exactly one selector of every group true. -/
theorem Encodes.exactlyOne (h : Encodes rules circles dots labels e) (hmodel : e.formula.IsModel model)
    {group : List Nat} (hgroup : group ∈ e.orgVars ++ e.labelVars) :
    ExactlyOne (Assignment.ofList model.toList) group :=
  (h.isModel_iff.mp hmodel).1.2 group hgroup

/-- A clause says that some selector of a group is true. -/
theorem Encodes.someOf_mem (h : Encodes rules circles dots labels e) {group : List Nat}
    (hgroup : group ∈ e.orgVars ++ e.labelVars) (hne : group ≠ []) :
    someOf group ∈ e.formula.clauses := by
  have hmem : someOf group ∈ exactlyOneOf group := by
    rw [exactlyOneOf, if_neg (by simpa using hne)]
    exact List.mem_cons_self
  rw [h.clauses_eq]
  exact List.mem_append_left _ (List.mem_append_left _ (List.mem_flatMap.mpr ⟨group, hgroup, hmem⟩))

open Search in
/-- The search of an encoding does not stop before every selector has a value. -/
theorem Encodes.length_node (h : Encodes rules circles dots labels e) {node : List Bool}
    (hnode : Found e.formula.clauses e.formula.numVars [] node) :
    node.length = e.formula.numVars := by
  by_contra hne
  have hlt : node.length < e.formula.numVars := Nat.lt_of_le_of_ne hnode.length_le hne
  have hsatisfies := Assignment.satisfies_eq_true_iff.mp (hnode.stopped.resolve_right hne)
  -- The next selector belongs to a group of which the node has made another selector true.
  obtain ⟨group, hgroup, hnext⟩ : ∃ group ∈ e.orgVars ++ e.labelVars, node.length + 1 ∈ group := by
    rw [← List.mem_flatten, h.vars_eq, List.mem_range'_1]
    omega
  obtain ⟨w, hw, hwtrue⟩ := someOf_true_iff.mp
    (hsatisfies _ (h.someOf_mem hgroup (List.ne_nil_of_mem hnext)))
  -- Padded with true values the node is a model, which has one true selector in the group.
  have hmodel : e.formula.IsModel (filled e.formula.numVars node).toArray :=
    h.admits_iff.mp ⟨length_filled hnode.length_le, hnode.sound⟩
  have hextends : (Assignment.ofList (filled e.formula.numVars node)).Extends (Assignment.ofList node) :=
    Assignment.extends_ofList (List.prefix_append _ _)
  have hnexttrue : Assignment.ofList (filled e.formula.numVars node) (node.length + 1) = some true := by
    have hpad : 0 < e.formula.numVars - node.length := by omega
    simp [Assignment.ofList, filled, hpad]
  have hsame : w = node.length + 1 :=
    (h.exactlyOne hmodel hgroup (List.ne_nil_of_mem hnext)).unique
      ⟨hw, hextends _ _ hwtrue⟩ ⟨hnext, hnexttrue⟩
  rw [hsame, Assignment.ofList_length_add_one] at hwtrue
  exact absurd hwtrue (by simp)

/-- Deciding an encoding answers the first model, or that there is none. -/
theorem Encodes.verdict_cases (h : Encodes rules circles dots labels e) :
    (∃ model, e.formula.decide.verdict = .sat model ∧ e.formula.IsModel model ∧
        ∀ other, e.formula.IsModel other → other = model ∨ Earlier model.toList other.toList) ∨
      e.formula.decide.verdict = .unsat ∧ ∀ model, ¬ e.formula.IsModel model := by
  rcases Formula.verdict_decide e.formula with ⟨node, hnode, hverdict⟩ | ⟨hverdict, hnone⟩
  -- Every variable has a value in a model, so nothing is filled in.
  · have hfilled : Search.filled e.formula.numVars node = node := by
      simp [Search.filled, h.length_node hnode]
    have hfirst := Formula.isFirst_filled hnode
    rw [hfilled] at hfirst
    rw [h.length_node hnode, Nat.sub_self, List.replicate_zero, List.append_nil] at hverdict
    refine Or.inl ⟨node.toArray, hverdict, h.admits_iff.mp hfirst.admits, fun other hother => ?_⟩
    have hadmits : e.formula.Admits other.toList := h.admits_iff.mpr (by simpa using hother)
    rcases hfirst.earliest other.toList hadmits with heq | hearlier
    · exact Or.inl (by rw [← heq, Array.toArray_toList])
    · exact Or.inr hearlier
  · refine Or.inr ⟨hverdict, fun model hmodel => ?_⟩
    have hadmits : e.formula.Admits model.toList := h.admits_iff.mpr (by simpa using hmodel)
    have hrefutes := hnone model.toList hadmits.1
    rw [hadmits.2] at hrefutes
    exact Bool.false_ne_true hrefutes

/-- The earlier of two models chooses the smaller vector. -/
theorem Encodes.vector_lt (h : Encodes rules circles dots labels e) {other : Array Bool}
    (hmodel : e.formula.IsModel model) (hother : e.formula.IsModel other)
    (hearlier : Earlier model.toList other.toList) :
    (e.choice model).vector < (e.choice other).vector := by
  have hlength : model.toList.length = other.toList.length := by
    rw [Array.length_toList, Array.length_toList, hmodel.1, hother.1]
  obtain ⟨v, htrue, hfalse, hbefore⟩ := exists_var_of_earlier hearlier hlength
  -- The variables are numbered in the order of the groups, so the first one that differs decides which
  -- group differs first.
  have hsorted : (e.orgVars ++ e.labelVars).flatten.Pairwise (· < ·) := by
    rw [h.vars_eq]
    exact List.pairwise_lt_range'
  have hv : v ∈ (e.orgVars ++ e.labelVars).flatten := by
    have hcovers := Assignment.covers_ofList model.toList v
    rw [htrue, Array.length_toList, hmodel.1] at hcovers
    have hrange := hcovers.mp rfl
    rw [h.vars_eq, List.mem_range'_1]
    omega
  have hlt := reduceOption_firstTrue?_lt hsorted (fun _ => h.exactlyOne hmodel)
    (fun _ => h.exactlyOne hother) hv htrue (by simp [hfalse]) hbefore
  rw [List.map_append, List.map_append] at hlt
  exact hlt

/-- Deciding an encoding answers the model of the least feasible choice, or that no choice is
feasible. -/
theorem Encodes.decide_cases (h : Encodes rules circles dots labels e) :
    (∃ model, e.formula.decide.verdict = .sat model ∧ e.formula.IsModel model ∧
        (e.choice model).IsLeast rules circles dots labels) ∨
      e.formula.decide.verdict = .unsat ∧ ∀ c : Choice, ¬ c.Feasible rules circles dots labels := by
  rcases h.verdict_cases with ⟨model, hverdict, hmodel, hfirst⟩ | ⟨hverdict, hnone⟩
  · refine Or.inl ⟨model, hverdict, hmodel, (h.isModel_iff.mp hmodel).2, fun other hfeasible hne => ?_⟩
    obtain ⟨model', hmodel', rfl⟩ := h.bijOn_choice.surjOn hfeasible
    rcases hfirst model' hmodel' with rfl | hearlier
    · exact absurd rfl hne
    · exact h.vector_lt hmodel hmodel' hearlier
  · refine Or.inr ⟨hverdict, fun c hfeasible => ?_⟩
    obtain ⟨model, hmodel, -⟩ := h.bijOn_choice.surjOn hfeasible
    exact hnone model hmodel

/-- Decoding the decided formula gives the layout of the least feasible choice. -/
theorem Encodes.decode_decide (h : Encodes rules circles dots labels e)
    (hlabels : labels.length = circles.length) {organizations : List Organization}
    (horganizations : organizations.length = dots.length) {c : Choice}
    (hleast : c.IsLeast rules circles dots labels) :
    decode e.formula.decide e organizations circles dots labels
      = .ok (c.layout organizations circles dots labels) := by
  rcases h.decide_cases with ⟨model, hverdict, hmodel, hfirst⟩ | ⟨-, hnone⟩
  · rw [hleast.unique hfirst |>.symm]
    have hdecode := h.decode_eq hlabels horganizations.le hmodel.1 e.formula.decide.effort
    rw [← hverdict] at hdecode
    exact hdecode
  · exact absurd hleast.feasible (hnone c)

/-- Encoding, deciding and decoding finds the least feasible choice and places every entity where it
says. If no choice is feasible, the formula has no model and there is nothing to decode. -/
theorem decode_decide_least (rules : Rules α) (circles : List (Circle α))
    (dots : List (List (DotCandidate α))) (labels : List (List (LabelCandidate α)))
    (organizations : List Organization) (hlabels : labels.length = circles.length)
    (horganizations : organizations.length = dots.length) :
    ∃ e, encode .empty rules circles dots labels = .ok e ∧
      ((∃ c : Choice, c.Feasible rules circles dots labels) →
        ∃ c : Choice, c.IsLeast rules circles dots labels ∧ e.formula.decide.ok = true ∧
          decode e.formula.decide e organizations circles dots labels
            = .ok (c.layout organizations circles dots labels)) ∧
      ((∀ c : Choice, ¬ c.Feasible rules circles dots labels) →
        e.formula.decide.verdict = .unsat ∧
          decode e.formula.decide e organizations circles dots labels = .error .unsatisfiable) := by
  obtain ⟨e, hencode, h⟩ := exists_encodes rules dots hlabels
  refine ⟨e, hencode, ?_⟩
  rcases h.decide_cases with ⟨model, hverdict, -, hleast⟩ | ⟨hverdict, hnone⟩
  · constructor
    · intro _
      exact ⟨_, hleast, by simp [Result.ok, hverdict], h.decode_decide hlabels horganizations hleast⟩
    · intro hnone
      exact absurd hleast.feasible (hnone _)
  · constructor
    · rintro ⟨c, hfeasible⟩
      exact absurd hfeasible (hnone c)
    · intro _
      exact ⟨hverdict, by simp [decode, Result.model?, hverdict]⟩

end

/-- Two organizations, the first of which can keep away from the second at its second point only, and a
circle with two places for its label. -/
theorem decode_decide_least_two_dots :
    let circle : Circle Float := ⟨0, "A", "red", 0, 5000, 100⟩
    let dots : List (List (DotCandidate Float)) := [[⟨0, 0, 1⟩, ⟨1000, 0, 1⟩], [⟨10, 0, 1⟩, ⟨0, 10, 1⟩]]
    let labels : List (List (LabelCandidate Float)) := [[⟨100, 5000, 0⟩, ⟨-100, 5000, 180⟩]]
    let organizations : List Organization := [⟨"a", ["A"], none, none⟩, ⟨"b", ["A"], none, none⟩]
    labels.length = [circle].length ∧ organizations.length = dots.length ∧
      ∃ e, encode .empty Rules.standard [circle] dots labels = .ok e ∧
        ((∃ c : Choice, c.Feasible Rules.standard [circle] dots labels) →
          ∃ c : Choice, c.IsLeast Rules.standard [circle] dots labels ∧ e.formula.decide.ok = true ∧
            decode e.formula.decide e organizations [circle] dots labels
              = .ok (c.layout organizations [circle] dots labels)) ∧
        ((∀ c : Choice, ¬ c.Feasible Rules.standard [circle] dots labels) →
          e.formula.decide.verdict = .unsat ∧
            decode e.formula.decide e organizations [circle] dots labels = .error .unsatisfiable) :=
  ⟨rfl, rfl, decode_decide_least _ _ _ _ _ rfl rfl⟩

end Encoding
end VennDiagram
