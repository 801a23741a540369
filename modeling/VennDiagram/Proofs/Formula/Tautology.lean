import VennDiagram.Proofs.Formula.Decide

/-!
# `VennDiagram.Proofs.Formula.Tautology`: one more clause that cannot be false

A clause that holds a variable and its negation is false under no assignment. Put among the clauses of a
formula, it changes nothing about which lists of values make no clause false. So there is a model
whenever there was one before, and the first list of values is the same (`Found.filled_eq`).

But such a clause is open until one of its variables has a value, and the search goes on while a clause
is open. It tries true first, and the variables that it does not reach are false in the model. So the
model stays the same exactly if the clause is true already where the search stops without it
(`decide_insert_tautology`). It is not always: see `decide_insert_tautology_ne`.
-/

set_option autoImplicit false

namespace VennDiagram

/-- The clause holds a variable and its negation. -/
def Clause.IsTautology (c : Clause) : Prop := ∃ var, Literal.yes var ∈ c ∧ Literal.no var ∈ c

/-- The formula with one more clause, after its first `i` clauses. -/
def Formula.insert (f : Formula) (i : Nat) (c : Clause) : Formula :=
  { f with clauses := f.clauses.take i ++ c :: f.clauses.drop i }

/-- A clause more is no variable more. -/
theorem Formula.numVars_insert (f : Formula) (i : Nat) (c : Clause) :
    (f.insert i c).numVars = f.numVars := rfl

/-- No value makes both a variable and its negation false. -/
theorem Clause.IsTautology.eval_ne {c : Clause} (h : c.IsTautology) (a : Assignment) :
    c.eval a ≠ some false := by
  obtain ⟨var, hyes, hno⟩ := h
  intro hfalse
  rw [eval_eq_some_false_iff] at hfalse
  have htrue := hfalse _ hno
  rw [Literal.eval_no, ← Literal.eval_yes a var, hfalse _ hyes] at htrue
  exact absurd htrue (by decide)

namespace Assignment

variable {f : Formula} {c : Clause}

/-- A tautology is never false. -/
theorem refutes_insert (h : c.IsTautology) (f : Formula) (i : Nat) (a : Assignment) :
    a.refutes (f.insert i c).clauses = a.refutes f.clauses := by
  have hc : (decide (c.eval a = some false)) = false := decide_eq_false (h.eval_ne a)
  calc a.refutes (f.insert i c).clauses = a.refutes (f.clauses.take i ++ f.clauses.drop i) := by
        simp only [refutes, Formula.insert, List.any_append, List.any_cons, hc, Bool.false_or]
    _ = a.refutes f.clauses := by rw [List.take_append_drop]

/-- It has to be true as well for all clauses to be. -/
theorem satisfies_insert_eq_true_iff {i : Nat} {a : Assignment} :
    a.satisfies (f.insert i c).clauses = true ↔
      c.eval a = some true ∧ a.satisfies f.clauses = true := by
  have hmem : ∀ d, d ∈ (f.insert i c).clauses ↔ d = c ∨ d ∈ f.clauses := fun d => by
    conv_rhs => rw [← List.take_append_drop i f.clauses]
    simp only [Formula.insert, List.mem_append, List.mem_cons]
    exact or_left_comm
  simp only [satisfies_eq_true_iff, hmem, forall_eq_or_imp]

end Assignment

namespace Search

variable {clauses others : List Clause} {length : Nat} {node p q : List Bool}

/-! ### What is found, by two searches -/

/-- Lists of clauses that are false under the same assignments have the same first list of values. -/
theorem Found.filled_eq (h : Found clauses length node p) (h' : Found others length node q)
    (hrefutes : ∀ a : Assignment, a.refutes clauses = a.refutes others) :
    filled length p = filled length q := by
  have hsound : (Assignment.ofList (filled length q)).refutes clauses = false :=
    (hrefutes _).trans h'.sound
  have hsound' : (Assignment.ofList (filled length p)).refutes others = false :=
    (hrefutes _).symm.trans h.sound
  have hp := h.first _ (h'.below.trans (List.prefix_append _ _)) (length_filled h'.length_le) hsound
  have hq := h'.first _ (h.below.trans (List.prefix_append _ _)) (length_filled h.length_le) hsound'
  rcases hp with heq | hlater
  · exact heq.symm
  · rcases hq with heq | hearlier
    · exact heq
    · exact absurd hlater hearlier.asymm

/-- The search does not go beyond a node at which it could stop. -/
theorem Found.eq_of_prefix (h : Found clauses length node p) (h' : Found clauses length node q)
    (hpq : p <+: q) : p = q := by
  by_contra hne
  have hopen := h'.unfinished p h.below hpq hne
  rcases h.stopped with hsatisfies | hfull
  · exact absurd (hsatisfies.symm.trans hopen) (by decide)
  · exact hne (hpq.eq_of_length_le (hfull ▸ h'.length_le))

/-- Nodes that are filled up to the same list lie on one path. -/
theorem prefix_of_filled_eq (h : filled length p = filled length q) (hle : p.length ≤ q.length) :
    p <+: q := by
  have hp : p <+: filled length q := h ▸ List.prefix_append _ _
  exact List.prefix_of_prefix_length_le hp (List.prefix_append _ _) hle

/-- Only one node is found. -/
theorem Found.unique (h : Found clauses length node p) (h' : Found clauses length node q) : p = q := by
  have hfilled := h.filled_eq h' fun _ => rfl
  rcases Nat.le_total p.length q.length with hle | hle
  · exact h.eq_of_prefix h' (prefix_of_filled_eq hfilled hle)
  · exact (h'.eq_of_prefix h (prefix_of_filled_eq hfilled.symm hle)).symm

/-- Of two nodes on the path to one list, the longer one has a true value where a false one is put after
the shorter one. -/
theorem not_lt_of_padded_eq (hfilled : filled length p = filled length q) (hq : q.length ≤ length)
    (hpadded : p ++ List.replicate (length - p.length) false
      = q ++ List.replicate (length - q.length) false) : ¬ p.length < q.length := by
  intro hlt
  have hroom : 0 < length - p.length := by omega
  have htrue : (filled length p)[p.length]? = some true := by
    simp [filled, hroom]
  have hfalse : (p ++ List.replicate (length - p.length) false)[p.length]? = some false := by
    simp [hroom]
  rw [hfilled, filled, List.getElem?_append_left hlt] at htrue
  rw [hpadded, List.getElem?_append_left hlt, htrue] at hfalse
  exact absurd hfalse (by decide)

/-- A clause that cannot be false and is true where the search stops does not make it stop elsewhere. -/
theorem Found.insert {f : Formula} {i : Nat} {c : Clause} (h : Found f.clauses length node p)
    (htautology : c.IsTautology) (hc : c.eval (Assignment.ofList p) = some true) :
    Found (f.insert i c).clauses length node p where
  below := h.below
  length_le := h.length_le
  stopped := h.stopped.imp_left fun hsatisfies =>
    Assignment.satisfies_insert_eq_true_iff.mpr ⟨hc, hsatisfies⟩
  -- The lists before the stop were not satisfied without the clause, so they are not with it.
  unfinished between hle hge hne := by
    refine Bool.eq_false_iff.mpr fun hsatisfies => ?_
    rw [Assignment.satisfies_insert_eq_true_iff, h.unfinished between hle hge hne] at hsatisfies
    exact absurd hsatisfies.2 (by decide)
  sound := by
    rw [Assignment.refutes_insert htautology]
    exact h.sound
  first values hvalues hlength hsound := by
    rw [Assignment.refutes_insert htautology] at hsound
    exact h.first values hvalues hlength hsound

end Search

namespace Formula

open Search

variable {f : Formula} {c : Clause}

/-- A clause over the allocated variables that cannot be false is true once all of them have values. -/
theorem eval_of_full {values : List Bool} (hvars : ∀ l ∈ c, 1 ≤ l.var ∧ l.var ≤ f.numVars)
    (htautology : c.IsTautology) (hfull : values.length = f.numVars) :
    c.eval (Assignment.ofList values) = some true := by
  have hcovers := Assignment.covers_ofList values
  rw [hfull] at hcovers
  exact Clause.eval_eq_some_true_of_ne (fun l hl => (hcovers l.var).mpr (hvars l hl))
    (htautology.eval_ne _)

/-- The models before and after are the same exactly if the clause is true where the search stopped
before. -/
theorem padded_insert_eq_iff {i : Nat} {p q : List Bool}
    (hvars : ∀ l ∈ c, 1 ≤ l.var ∧ l.var ≤ f.numVars) (htautology : c.IsTautology)
    (hp : Found f.clauses f.numVars [] p) (hq : Found (f.insert i c).clauses f.numVars [] q) :
    q ++ List.replicate (f.numVars - q.length) false
        = p ++ List.replicate (f.numVars - p.length) false ↔
      c.eval (Assignment.ofList p) = some true := by
  have hfilled : filled f.numVars p = filled f.numVars q :=
    hp.filled_eq hq fun a => (Assignment.refutes_insert htautology f i a).symm
  constructor
  · intro hpadded
    -- The search with the clause cannot have gone further, so it stopped on the way to `p`.
    have hle : q.length ≤ p.length :=
      Nat.le_of_not_lt (not_lt_of_padded_eq hfilled hq.length_le hpadded.symm)
    rcases hq.stopped with hsatisfies | hfull
    · have hprefix : q <+: p := prefix_of_filled_eq hfilled.symm hle
      exact Clause.eval_of_extends (Assignment.extends_ofList hprefix)
        (Assignment.satisfies_insert_eq_true_iff.mp hsatisfies).1
    · exact eval_of_full hvars htautology (Nat.le_antisymm hp.length_le (hfull ▸ hle))
  · intro hc
    rw [(hp.insert htautology hc).unique hq]

/-- A clause that holds a variable and its negation, put anywhere among the clauses of a formula, does not
change whether there is a model. It changes the model unless it is true already under the values that
the search needs without it. -/
theorem decide_insert_tautology (f : Formula) (i : Nat) (c : Clause)
    (hvars : ∀ l ∈ c, 1 ≤ l.var ∧ l.var ≤ f.numVars) (htautology : c.IsTautology) :
    ((f.insert i c).decide.verdict = .unsat ↔ f.decide.verdict = .unsat) ∧
    ∀ values, f.IsFirst values →
      ((f.insert i c).decide.verdict = f.decide.verdict ↔
        c.eval (Assignment.ofList (values.take (f.needed values))) = some true) := by
  have hrefutes := Assignment.refutes_insert htautology f i
  have hinsert := verdict_decide (f.insert i c)
  rw [numVars_insert] at hinsert
  -- A tautology is never false, so both formulas have models or neither has. If they have, the same
  -- values are first, and the question is how many of them each search needs.
  rcases verdict_decide f with ⟨p, hp, hverdict⟩ | ⟨hverdict, hnone⟩
  · rcases hinsert with ⟨q, hq, hverdict'⟩ | ⟨-, hnone'⟩
    · refine ⟨by rw [hverdict, hverdict']; simp, fun values hvalues => ?_⟩
      have hneeded : values.take (f.needed values) = p := by
        rw [hvalues.unique (isFirst_filled hp), needed_filled hp, filled, List.take_left]
      rw [hverdict, hverdict', hneeded, Verdict.sat.injEq, ← padded_insert_eq_iff hvars htautology hp hq]
      exact ⟨List.toArray_inj, congrArg List.toArray⟩
    · have hfalse := hnone' _ (length_filled hp.length_le)
      rw [hrefutes, hp.sound] at hfalse
      exact absurd hfalse (by decide)
  · rcases hinsert with ⟨q, hq, -⟩ | ⟨hverdict', -⟩
    · have hfalse := hnone _ (length_filled hq.length_le)
      rw [← hrefutes, hq.sound] at hfalse
      exact absurd hfalse (by decide)
    · refine ⟨by rw [hverdict, hverdict'], fun values hvalues => ?_⟩
      have hfalse := hnone values hvalues.admits.1
      rw [hvalues.admits.2] at hfalse
      exact absurd hfalse (by decide)

/-- The first clause is true as soon as the search gives its variable a value, before the others are. -/
theorem decide_insert_tautology_first :
    let f : Formula := ⟨2, [[.no 1], [.yes 1, .yes 2]]⟩
    let c : Clause := [.yes 1, .no 1]
    (∀ l ∈ c, 1 ≤ l.var ∧ l.var ≤ f.numVars) ∧ c.IsTautology ∧
      f.decide.verdict = .sat #[false, true] ∧
      ((f.insert 0 c).decide.verdict = .unsat ↔ f.decide.verdict = .unsat) ∧
      ∀ values, f.IsFirst values →
        ((f.insert 0 c).decide.verdict = f.decide.verdict ↔
          c.eval (Assignment.ofList (values.take (f.needed values))) = some true) := by
  intro f c
  have hvars : ∀ l ∈ c, 1 ≤ l.var ∧ l.var ≤ f.numVars := by decide
  have htautology : c.IsTautology := ⟨1, by decide, by decide⟩
  exact ⟨hvars, htautology, by decide +kernel, decide_insert_tautology f 0 c hvars htautology⟩

/-- The variable of the added clause is not needed without it and false in the model, and with it the
search reaches the variable and makes it true. -/
theorem decide_insert_tautology_ne :
    let f : Formula := ⟨2, [[.yes 1]]⟩
    let c : Clause := [.yes 2, .no 2]
    (∀ l ∈ c, 1 ≤ l.var ∧ l.var ≤ f.numVars) ∧ c.IsTautology ∧
      f.decide.verdict = .sat #[true, false] ∧ (f.insert 1 c).decide.verdict = .sat #[true, true] :=
  ⟨by decide, ⟨2, by decide, by decide⟩, by decide +kernel, by decide +kernel⟩

end Formula
end VennDiagram
