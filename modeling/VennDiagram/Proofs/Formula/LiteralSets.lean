import Mathlib.Data.Finset.Dedup
import VennDiagram.Proofs.Formula.Decide

/-!
# `VennDiagram.Proofs.Formula.LiteralSets`: what the search sees of a formula

Clauses may stand in any order and several times, and so may literals in a clause. The counters of the
search differ then: they count places. What is decided, and with how much effort, does not differ
(`decide_eq_of_literalSets_eq`).

The search is the exploration that evaluates every clause anew at every node, and of the clauses that
exploration asks only whether one is false and whether all are true. Two lists of clauses with the same
sets of literals answer both alike (`refutes_congr`, `satisfies_congr`), so they are explored alike
(`explore_congr`).
-/

set_option autoImplicit false

namespace VennDiagram

/-- The sets of literals of clauses. -/
def literalSets (clauses : List Clause) : Finset (Finset Literal) :=
  (clauses.map List.toFinset).toFinset

variable {clauses others : List Clause}

/-- The truth of a clause depends on its set of literals. -/
theorem Clause.eval_congr {c d : Clause} (h : c.toFinset = d.toFinset) (a : Assignment) :
    c.eval a = d.eval a := by
  have hmem : ∀ l, l ∈ c ↔ l ∈ d := fun l => by rw [← List.mem_toFinset, h, List.mem_toFinset]
  refine Option.ext fun t => ?_
  cases t with
  | true => simp only [eval_eq_some_true_iff, hmem]
  | false => simp only [eval_eq_some_false_iff, hmem]

/-- A clause of one list has its set of literals in the other. -/
theorem exists_mem_of_literalSets_eq (h : literalSets clauses = literalSets others) {c : Clause}
    (hc : c ∈ clauses) : ∃ d ∈ others, d.toFinset = c.toFinset := by
  have hset : c.toFinset ∈ literalSets clauses := List.mem_toFinset.mpr (List.mem_map_of_mem hc)
  rw [h] at hset
  exact List.mem_map.mp (List.mem_toFinset.mp hset)

namespace Assignment

/-- A false clause is false with its literals repeated or in another order, and wherever it stands. -/
theorem refutes_of_literalSets_eq (h : literalSets clauses = literalSets others) {a : Assignment}
    (ha : a.refutes clauses = true) : a.refutes others = true := by
  obtain ⟨c, hc, hfalse⟩ := refutes_eq_true_iff.mp ha
  obtain ⟨d, hd, hset⟩ := exists_mem_of_literalSets_eq h hc
  exact refutes_eq_true_iff.mpr ⟨d, hd, (Clause.eval_congr hset a).trans hfalse⟩

/-- So it is with clauses that are all true. -/
theorem satisfies_of_literalSets_eq (h : literalSets clauses = literalSets others) {a : Assignment}
    (ha : a.satisfies clauses = true) : a.satisfies others = true := by
  rw [satisfies_eq_true_iff] at ha ⊢
  intro d hd
  obtain ⟨c, hc, hset⟩ := exists_mem_of_literalSets_eq h.symm hd
  exact (Clause.eval_congr hset a).symm.trans (ha c hc)

/-- Clauses with the same sets of literals are refuted by the same assignments. -/
theorem refutes_congr (h : literalSets clauses = literalSets others) (a : Assignment) :
    a.refutes clauses = a.refutes others :=
  Bool.eq_iff_iff.mpr ⟨refutes_of_literalSets_eq h, refutes_of_literalSets_eq h.symm⟩

/-- They are satisfied by the same assignments, too. -/
theorem satisfies_congr (h : literalSets clauses = literalSets others) (a : Assignment) :
    a.satisfies clauses = a.satisfies others :=
  Bool.eq_iff_iff.mpr ⟨satisfies_of_literalSets_eq h, satisfies_of_literalSets_eq h.symm⟩

end Assignment

namespace Search

/-- Lists of clauses that are false and true under the same assignments are explored alike. -/
theorem explore_congr (hrefutes : ∀ a : Assignment, a.refutes clauses = a.refutes others)
    (hsatisfies : ∀ a : Assignment, a.satisfies clauses = a.satisfies others) (left : Nat)
    (node : List Bool) : explore clauses left node = explore others left node := by
  -- At every node the same questions get the same answers, whichever list is asked.
  induction left generalizing node with
  | zero => rw [explore, explore, hrefutes]
  | succ left ih => rw [explore, explore, hrefutes, hsatisfies, ih, ih]

/-- An exploration counts the same for clauses that are refuted alike. -/
theorem result_congr (hrefutes : ∀ a : Assignment, a.refutes clauses = a.refutes others) (numVars : Nat)
    (x : Exploration) : x.result clauses numVars = x.result others numVars := by
  simp only [Exploration.result, Exploration.effort, hrefutes]

end Search

namespace Formula

/-- Formulas over the same variables whose clauses have the same sets of literals have the same verdict,
the same model, and the same effort. -/
theorem decide_eq_of_literalSets_eq {f g : Formula} (hvars : f.numVars = g.numVars)
    (hsets : literalSets f.clauses = literalSets g.clauses) : f.decide = g.decide := by
  have hrefutes := Assignment.refutes_congr hsets
  have hsatisfies := Assignment.satisfies_congr hsets
  calc f.decide = (Search.explore f.clauses f.numVars []).result f.clauses f.numVars :=
        decide_eq_result f
    _ = (Search.explore g.clauses g.numVars []).result f.clauses g.numVars := by
        rw [hvars, Search.explore_congr hrefutes hsatisfies]
    _ = (Search.explore g.clauses g.numVars []).result g.clauses g.numVars :=
        Search.result_congr hrefutes g.numVars _
    _ = g.decide := (decide_eq_result g).symm

/-- Two clauses over two variables, under which both have to be false. -/
def plain : Formula := ⟨2, [[.yes 1, .no 2], [.no 1]]⟩

/-- The same clauses in another order, with repetitions. -/
def repeated : Formula := ⟨2, [[.no 1, .no 1], [.no 2, .yes 1, .no 2], [.no 1]]⟩

/-- Clauses with repeated literals and a clause that comes twice. -/
theorem decide_eq_of_literalSets_eq_repeated :
    literalSets plain.clauses = literalSets repeated.clauses ∧
    plain.decide = ⟨.sat #[false, false], ⟨4, 2, 0⟩⟩ ∧
    repeated.decide = plain.decide := by
  have hsets : literalSets plain.clauses = literalSets repeated.clauses := by decide
  exact ⟨hsets, by decide +kernel, decide_eq_of_literalSets_eq rfl hsets.symm⟩

end Formula
end VennDiagram
