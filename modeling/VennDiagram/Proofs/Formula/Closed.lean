import VennDiagram.Proofs.Formula.Decide
import VennDiagram.Proofs.Formula.TokenStream
import VennDiagram.Proofs.Steps

/-!
# `VennDiagram.Proofs.Formula.Closed`: formulas that name allocated variables only

A clause may name a variable that is not allocated, and such a clause can stay open under every
assignment of the others. In a closed formula no clause does. So the verdict on it is a model in the
plain sense, which makes every clause true, or there is none (`Formula.decide_cases_of_closed`).

The formulas of texts are closed (`Dimacs.closed_formula`), and no clause of a text is refused when its
formula is built from the document, one call after another (`Dimacs.build_eq`).
-/

set_option autoImplicit false

namespace VennDiagram

/-! ### Literals as integers -/

namespace Literal

variable {l : Literal}

/-- The magnitude of a written literal is its variable. -/
theorem natAbs_toInt (l : Literal) : l.toInt.natAbs = l.var := by
  unfold toInt
  split <;> omega

/-- No literal of a variable that is numbered from one on is written as zero. -/
theorem toInt_ne_zero (hl : 1 ≤ l.var) : l.toInt ≠ 0 := by
  have := natAbs_toInt l
  omega

/-- A literal of such a variable is read back from its integer. -/
theorem ofInt_toInt (hl : 1 ≤ l.var) : ofInt l.toInt = l := by
  obtain ⟨var, positive⟩ := l
  change 1 ≤ var at hl
  cases positive
  · simp [ofInt, toInt]
  · simp [ofInt, toInt]
    omega

end Literal

/-! ### Formulas that name allocated variables only -/

namespace Formula

/-- Every literal names an allocated variable. -/
def Closed (f : Formula) : Prop := ∀ c ∈ f.clauses, ∀ l ∈ c, 1 ≤ l.var ∧ l.var ≤ f.numVars

/-- Some values for the allocated variables make every clause true. -/
def HasModel (f : Formula) : Prop :=
  ∃ a : Assignment, a.Covers f.numVars ∧ ∀ c ∈ f.clauses, c.eval a = some true

/-- A verdict on a formula that names allocated variables only is a model, or there is none. -/
theorem decide_cases_of_closed {f : Formula} (hf : f.Closed) :
    (∃ values : List Bool, values.length = f.numVars ∧
        (∀ c ∈ f.clauses, c.eval (.ofList values) = some true) ∧
        f.decide.verdict = .sat values.toArray) ∨
      f.decide.verdict = .unsat ∧ ¬ f.HasModel := by
  rcases verdict_decide f with ⟨node, hnode, hverdict⟩ | ⟨hverdict, hnone⟩
  · -- No clause is false, and every literal has a value, so every clause is true.
    have hlength : (node ++ List.replicate (f.numVars - node.length) false).length = f.numVars := by
      have := hnode.length_le
      rw [List.length_append, List.length_replicate]
      omega
    have hcovers := Assignment.covers_ofList (node ++ List.replicate (f.numVars - node.length) false)
    rw [hlength] at hcovers
    have hsound := Assignment.refutes_eq_false_iff.mp (refutes_padded hnode)
    refine Or.inl ⟨_, hlength, fun c hc => ?_, hverdict⟩
    exact Clause.eval_eq_some_true_of_ne (fun l hl => (hcovers l.var).mpr (hf c hc l hl)) (hsound c hc)
  · refine Or.inr ⟨hverdict, ?_⟩
    rintro ⟨a, hcovers, htrue⟩
    obtain ⟨values, hlength, rfl⟩ := Assignment.eq_ofList_of_covers hcovers
    obtain ⟨c, hc, hfalse⟩ := Assignment.refutes_eq_true_iff.mp (hnone values hlength)
    exact absurd (htrue c hc) (by simp [hfalse])

end Formula

namespace Dimacs

/-! ### The formula of a text -/

/-- The formula that is built by allocating the variables of a document and adding its clauses one by
one, each literal as an integer. -/
def Document.build (d : Document) : Except ClauseError Formula :=
  d.clauses.foldlM (fun f c => f.addMembers (c.map fun l => .int l.toInt))
    (Formula.empty.allocateMany d.numVars).2

/-- The formula of a text that is read names its own variables only. -/
theorem closed_formula {text : String} {d : Document} (hread : read text = .ok d) : d.formula.Closed :=
  fun _ hc _ hl => var_le_of_read hread hc hl

/-- A literal whose variable is numbered from one on is not refused. -/
theorem literal_toInt {l : Literal} (hl : 1 ≤ l.var) : Formula.literal (.int l.toInt) = .ok l := by
  rw [Formula.literal, if_neg (Literal.toInt_ne_zero hl), Literal.ofInt_toInt hl]

/-- A clause of such literals is added as it is. -/
theorem addMembers_toInt (f : Formula) {c : Clause} (hc : ∀ l ∈ c, 1 ≤ l.var) :
    f.addMembers (c.map fun l => .int l.toInt) = .ok (f.add c) := by
  have hliterals : (c.map fun l => Json.int l.toInt).mapM Formula.literal = .ok c := by
    have hread : ∀ l ∈ c, Formula.literal (.int l.toInt) = .ok (id l) := fun l hl => literal_toInt (hc l hl)
    rw [List.mapM_map]
    exact (mapM_eq_ok hread).trans (congrArg Except.ok (List.map_id c))
  rw [Formula.addMembers, hliterals]
  rfl

/-- Clauses of such literals are added one by one as they are. -/
theorem foldlM_addMembers_toInt (f : Formula) {cs : List Clause} (hcs : ∀ c ∈ cs, ∀ l ∈ c, 1 ≤ l.var) :
    cs.foldlM (fun f c => f.addMembers (c.map fun l => .int l.toInt)) f = .ok (f.addAll cs) := by
  -- The induction is over the clauses that are still to be added, from any formula.
  induction cs generalizing f with
  | nil => simp [Formula.addAll, pure, Except.pure]
  | cons c cs ih =>
    rw [List.foldlM_cons, addMembers_toInt f (hcs c List.mem_cons_self)]
    exact (ih _ fun c hc => hcs c (List.mem_cons_of_mem _ hc)).trans
      (by simp [Formula.addAll, Formula.add])

/-- No clause of a text is refused when its formula is built. -/
theorem build_eq {text : String} {d : Document} (hread : read text = .ok d) :
    d.build = .ok d.formula := by
  rw [Document.build, foldlM_addMembers_toInt _ fun c hc l hl => (var_le_of_read hread hc hl).1]
  simp [Formula.addAll, Formula.allocateMany, Formula.empty, Document.formula]

end Dimacs
end VennDiagram
