import VennDiagram.Proofs.Formula.Decide

/-!
# `VennDiagram.Proofs.Formula.Session`: calls on one formula, one after another

A formula is built and decided by calls: variables are allocated one at a time or in a row, the clauses
of values are added or refused, and a verdict is asked for at any time in between. `after` is the formula
that calls lead to, and `replies` lists what they answer.

A call only ever adds to a formula (`call_grows`), so what calls lead to has all the variables and
clauses from before (`after_grows`). A clause may name a variable that is allocated later, and then more
of it is decided than before. This cannot bring a model back: if every list of values makes some clause
false, every longer list does, since a false clause stays false when more variables get values
(`Grows.unsat`). Verdicts without a model are therefore for good, and a refused clause is as good as not
given (`unsat_permanent`).
-/

set_option autoImplicit false

namespace VennDiagram

/-- A call on a formula. A count below zero allocates nothing. -/
inductive Call where
  | allocate
  | allocateMany (count : Int)
  | add (value : Json)
  | decide

/-- What a call answers. -/
inductive Reply where
  | fresh (var : Nat)
  | freshRow (vars : List Nat)
  | added
  | refused (e : ClauseError)
  | decided (r : Result)

/-- The result in an answer. -/
def Reply.result? : Reply → Option Result
  | .decided r => some r
  | _ => none

namespace Formula

/-- The formula after a call, and the answer. -/
def call (f : Formula) : Call → Formula × Reply
  | .allocate => (f.allocate.2, .fresh f.allocate.1)
  | .allocateMany count =>
    ((f.allocateMany count.toNat).2, .freshRow (f.allocateMany count.toNat).1)
  | .add value =>
    match f.addValue value with
    | .ok g => (g, .added)
    | .error e => (f, .refused e)
  | .decide => (f, .decided f.decide)

/-- The formula after calls. -/
def after (f : Formula) : List Call → Formula
  | [] => f
  | c :: calls => (f.call c).1.after calls

/-- The answers to calls. -/
def replies (f : Formula) : List Call → List Reply
  | [] => []
  | c :: calls => (f.call c).2 :: (f.call c).1.replies calls

/-- The results among the answers to calls. -/
def results (f : Formula) (calls : List Call) : List Result := (f.replies calls).filterMap Reply.result?

variable {f g : Formula} {value : Json} {e : ClauseError}

/-- Later calls are made on the formula that the earlier ones leave. -/
theorem after_append (f : Formula) (calls later : List Call) :
    f.after (calls ++ later) = (f.after calls).after later := by
  induction calls generalizing f with
  | nil => rfl
  | cons c calls ih => exact ih (f.call c).1

/-- Their replies come after those of the earlier ones. -/
theorem replies_append (f : Formula) (calls later : List Call) :
    f.replies (calls ++ later) = f.replies calls ++ (f.after calls).replies later := by
  induction calls generalizing f with
  | nil => rfl
  | cons c calls ih => exact congrArg ((f.call c).2 :: ·) (ih (f.call c).1)

/-- Adding a clause that is not refused leaves the formula with it. -/
theorem call_add_of_ok (h : f.addValue value = .ok g) : f.call (.add value) = (g, .added) := by
  rw [call, h]

/-- A clause that is refused leaves the formula as it was. -/
theorem call_add_of_error (h : f.addValue value = .error e) :
    f.call (.add value) = (f, .refused e) := by
  rw [call, h]

/-- A clause that is not refused comes last. -/
theorem addValue_eq (h : f.addValue value = .ok g) : ∃ c, g = f.add c := by
  rw [addValue] at h
  cases hmembers : value.members? with
  | none =>
    rw [hmembers] at h
    exact nomatch h
  | some members =>
    simp only [hmembers, addMembers] at h
    cases hliterals : members.mapM literal with
    | error e =>
      rw [hliterals] at h
      exact nomatch h
    | ok c =>
      rw [hliterals] at h
      exact ⟨c, (Except.ok.inj h).symm⟩

/-! ### Formulas grow -/

/-- `g` has the variables and clauses of `f`, and perhaps more. -/
structure Grows (f g : Formula) : Prop where
  numVars_le : f.numVars ≤ g.numVars
  clauses : f.clauses <+: g.clauses

/-- A formula grows by nothing. -/
theorem Grows.refl (f : Formula) : f.Grows f := ⟨Nat.le_refl _, List.prefix_rfl⟩

/-- What has grown may grow further. -/
theorem Grows.trans {h : Formula} (hfg : f.Grows g) (hgh : g.Grows h) : f.Grows h :=
  ⟨Nat.le_trans hfg.numVars_le hgh.numVars_le, hfg.clauses.trans hgh.clauses⟩

/-- A call takes nothing away. -/
theorem call_grows (f : Formula) (c : Call) : f.Grows (f.call c).1 := by
  cases c with
  | allocate => exact ⟨Nat.le_succ _, List.prefix_rfl⟩
  | allocateMany count => exact ⟨Nat.le_add_right _ _, List.prefix_rfl⟩
  | add value =>
    cases hadd : f.addValue value with
    | ok g =>
      rw [call_add_of_ok hadd]
      obtain ⟨c, rfl⟩ := addValue_eq hadd
      exact ⟨Nat.le_refl _, List.prefix_append _ _⟩
    | error e =>
      rw [call_add_of_error hadd]
      exact Grows.refl f
  | decide => exact Grows.refl f

/-- Nor do calls, however many. -/
theorem after_grows (f : Formula) (calls : List Call) : f.Grows (f.after calls) := by
  induction calls generalizing f with
  | nil => exact Grows.refl f
  | cons c calls ih => exact (call_grows f c).trans (ih _)

/-! ### No model -/

/-- There is no model if every list of values makes a clause false. -/
theorem verdict_eq_unsat_iff (f : Formula) :
    f.decide.verdict = .unsat ↔
      ∀ values, values.length = f.numVars → (Assignment.ofList values).refutes f.clauses = true := by
  rcases verdict_decide f with ⟨node, hnode, hverdict⟩ | ⟨hverdict, hnone⟩
  · -- There is a model, and with it a list of values that makes no clause false.
    have hlength := Search.length_filled hnode.length_le
    constructor
    · intro hunsat
      exact nomatch hverdict.symm.trans hunsat
    · intro hall
      exact absurd (hall _ hlength) (by simp [hnode.sound])
  · exact iff_of_true hverdict hnone

/-- A formula without a model has none after it has grown. -/
theorem Grows.unsat (h : f.Grows g) (hf : f.decide.verdict = .unsat) : g.decide.verdict = .unsat := by
  rw [verdict_eq_unsat_iff] at hf ⊢
  intro values hlength
  -- The values of the variables that were there before make a clause false already.
  have htake : (values.take f.numVars).length = f.numVars := by
    rw [List.length_take, hlength, Nat.min_eq_left h.numVars_le]
  obtain ⟨c, hc, hfalse⟩ := Assignment.refutes_eq_true_iff.mp (hf _ htake)
  have hextends := Assignment.extends_ofList (List.take_prefix f.numVars values)
  exact Assignment.refutes_eq_true_iff.mpr
    ⟨c, h.clauses.subset hc, Clause.eval_of_extends hextends hfalse⟩

/-! ### Results -/

/-- Only a call for a verdict answers a result. -/
theorem result_call {c : Call} {r : Result} (h : (f.call c).2.result? = some r) :
    (f.call c).1 = f ∧ f.decide = r := by
  cases c with
  | decide => exact ⟨rfl, Option.some.inj h⟩
  | allocate => exact nomatch h
  | allocateMany count => exact nomatch h
  | add value =>
    cases hadd : f.addValue value with
    | ok g =>
      rw [call_add_of_ok hadd] at h
      exact nomatch h
    | error e =>
      rw [call_add_of_error hadd] at h
      exact nomatch h

/-- A result among the answers is the result of a formula that calls led to. -/
theorem exists_grows_of_mem_results {calls : List Call} {r : Result} (hr : r ∈ f.results calls) :
    ∃ g, f.Grows g ∧ g.decide = r := by
  induction calls generalizing f with
  | nil => cases hr
  | cons c calls ih =>
    obtain ⟨reply, hreply, hresult⟩ := List.mem_filterMap.mp hr
    rcases List.mem_cons.mp hreply with rfl | hreply
    · exact ⟨f, Grows.refl f, (result_call hresult).2⟩
    · obtain ⟨g, hgrows, hg⟩ := ih (List.mem_filterMap.mpr ⟨reply, hreply, hresult⟩)
      exact ⟨g, (call_grows f c).trans hgrows, hg⟩

/-- A result without a model is followed by such results only. -/
theorem results_pairwise (f : Formula) (calls : List Call) :
    (f.results calls).Pairwise fun r later => r.verdict = .unsat → later.verdict = .unsat := by
  induction calls generalizing f with
  | nil => exact List.Pairwise.nil
  | cons c calls ih =>
    cases hresult : (f.call c).2.result? with
    | none =>
      rw [results, replies, List.filterMap_cons_none hresult]
      exact ih _
    | some r =>
      rw [results, replies, List.filterMap_cons_some hresult]
      refine List.Pairwise.cons ?_ (ih _)
      -- The first result is that of `f`, and every later one is that of a formula grown from `f`.
      intro later hlater hr
      obtain ⟨hsame, rfl⟩ := result_call hresult
      rw [hsame] at hlater
      obtain ⟨g, hgrows, rfl⟩ := exists_grows_of_mem_results hlater
      exact hgrows.unsat hr

/-- Whatever calls are made, once a verdict is that there is no model, all later ones are. A clause that
is refused leaves the formula as it was, and all answers are those that are given without it. -/
theorem unsat_permanent (f : Formula) (calls : List Call) :
    ((f.results calls).Pairwise fun r later => r.verdict = .unsat → later.verdict = .unsat) ∧
    ∀ value e later, (f.after calls).addValue value = .error e →
      f.after (calls ++ [.add value]) = f.after calls ∧
      f.after (calls ++ .add value :: later) = f.after (calls ++ later) ∧
      f.replies (calls ++ .add value :: later)
        = f.replies calls ++ .refused e :: (f.after calls).replies later ∧
      f.replies (calls ++ later) = f.replies calls ++ (f.after calls).replies later := by
  refine ⟨results_pairwise f calls, ?_⟩
  intro value e later hrefused
  have hcall := call_add_of_error hrefused
  refine ⟨?_, ?_, ?_, replies_append f calls later⟩
  · rw [after_append, after, after, hcall]
  · rw [after_append, after_append, after, hcall]
  · rw [replies_append, replies, hcall]

/-- A clause and its opposite, with a verdict after each. -/
def opposites : List Call :=
  [.allocate, .add (.arr [.int 1]), .decide, .add (.arr [.int (-1)]), .decide]

/-- A clause that names a variable before it is allocated, and a verdict. -/
def growth : List Call := [.add (.arr [.int (-2)]), .allocateMany 2, .decide]

/-- A clause with a zero, which is refused between the two. -/
def withZero : Json := .arr [.int 2, .int 0]

/-- A variable that has to be true and false, a refused clause, and more of both afterwards. -/
theorem unsat_permanent_opposites :
    (empty.results (opposites ++ growth)).map (·.verdict) = [.sat #[true], .unsat, .unsat] ∧
    (empty.results (opposites ++ growth)).Pairwise
      (fun r later => r.verdict = .unsat → later.verdict = .unsat) ∧
    (empty.after opposites).addValue withZero = .error (.invalidLiteral (.int 0)) ∧
    empty.after (opposites ++ .add withZero :: growth) = empty.after (opposites ++ growth) := by
  have hrefused : (empty.after opposites).addValue withZero = .error (.invalidLiteral (.int 0)) := rfl
  obtain ⟨-, hidle⟩ := unsat_permanent empty opposites
  obtain ⟨-, hafter, -⟩ := hidle withZero _ growth hrefused
  exact ⟨by decide +kernel, (unsat_permanent empty (opposites ++ growth)).1, hrefused, hafter⟩

end Formula
end VennDiagram
