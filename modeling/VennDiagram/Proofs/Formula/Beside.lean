import VennDiagram.Proofs.Formula.Closed
import VennDiagram.Proofs.Formula.Session

/-!
# `VennDiagram.Proofs.Formula.Beside`: two formulas that share no variable

`f.beside g` has the variables of `f` and after them those of `g`, renumbered, and the clauses of both.
The search for a model of it first has to settle the variables of `f`. It may come back to them as often
as it likes, but what it leaves behind for `g` is what it finds for `g` alone (`verdict_beside`), as long
as `f` names its own variables only and has a model.

* `refutes_beside` and `satisfies_beside`: a list of values for `f` followed by one for `g` makes a clause
  false, or all of them true, as its two parts do.
* `isFirst_beside`: the first list without a false clause is the first one for `f` followed by the first
  one for `g`.
* `satisfies_beside_of_le`: unless `g` has no clauses, the search cannot stop among the variables of `f`,
  since no clause of `g` is true before a variable of `g` has a value. So the values it needs of the
  second part are those it needs for `g` (`needed_beside`).
-/

set_option autoImplicit false

namespace VennDiagram

/-- The literal of the variable that comes `n` numbers later. -/
def Literal.shift (n : Nat) (l : Literal) : Literal := ⟨n + l.var, l.positive⟩

/-- The clause over the variables that come `n` numbers later. -/
def Clause.shift (n : Nat) (c : Clause) : Clause := c.map (Literal.shift n)

/-- A list of values that comes before another one of the same length also does so when both go on. -/
theorem Earlier.append {p p' : List Bool} (h : Earlier p p') (hlength : p.length = p'.length)
    (q q' : List Bool) : Earlier (p ++ q) (p' ++ q') := by
  induction h with
  | nil => simp at hlength
  | rel hvalues => exact List.Lex.rel hvalues
  | cons _ ih => exact List.Lex.cons (ih (Nat.succ.inj hlength))

/-! ### Values for both -/

section
variable {p q : List Bool}

/-- Clauses are refuted exactly if one of their truth values is false. -/
theorem Assignment.refutes_eq_any (a : Assignment) (clauses : List Clause) :
    a.refutes clauses = (clauses.map (Clause.eval a)).any (· = some false) := by
  rw [refutes, List.any_map]
  rfl

/-- They are satisfied exactly if all of their truth values are true. -/
theorem Assignment.satisfies_eq_all (a : Assignment) (clauses : List Clause) :
    a.satisfies clauses = (clauses.map (Clause.eval a)).all (· = some true) := by
  rw [satisfies, List.all_map]
  rfl

/-- An early variable reads the first values. -/
theorem Assignment.ofList_append_of_le {v : Nat} (hv : v ≤ p.length) :
    ofList (p ++ q) v = ofList p v := by
  cases v with
  | zero => rfl
  | succ i => exact List.getElem?_append_left hv

/-- A later one reads the second values, by its number among them. -/
theorem Assignment.ofList_append_add {v : Nat} (hv : 1 ≤ v) :
    ofList (p ++ q) (p.length + v) = ofList q v := by
  obtain ⟨i, rfl⟩ : ∃ i, v = i + 1 := ⟨v - 1, by omega⟩
  show (p ++ q)[p.length + i]? = q[i]?
  rw [List.getElem?_append_right (Nat.le_add_right _ _), Nat.add_sub_cancel_left]

/-- Clauses whose literals are true and false together are true and false together. -/
theorem Clause.eval_map {a b : Assignment} {f : Literal → Literal} {c : Clause}
    (h : ∀ l ∈ c, (f l).eval a = l.eval b) : Clause.eval a (c.map f) = c.eval b := by
  induction c with
  | nil => rfl
  | cons l c ih =>
    obtain ⟨hl, hc⟩ := List.forall_mem_cons.mp h
    rw [List.map_cons, eval, eval, hl, ih hc]

/-- A clause over the first variables does not notice that more have values. -/
theorem Clause.eval_append {c : Clause} (hc : ∀ l ∈ c, 1 ≤ l.var ∧ l.var ≤ p.length) :
    c.eval (.ofList (p ++ q)) = c.eval (.ofList p) := by
  have hmap := eval_map (f := fun l => l) (a := .ofList (p ++ q)) (b := .ofList p) (c := c)
    fun l hl => by rw [Literal.eval, Literal.eval, Assignment.ofList_append_of_le (hc l hl).2]
  rwa [List.map_id'] at hmap

/-- A clause that was shifted reads the values that come later. -/
theorem Clause.eval_shift {c : Clause} (hc : ∀ l ∈ c, 1 ≤ l.var) :
    (c.shift p.length).eval (.ofList (p ++ q)) = c.eval (.ofList q) :=
  eval_map fun l hl => by
    show (Assignment.ofList (p ++ q) (p.length + l.var)).map l.holds = _
    rw [Assignment.ofList_append_add (hc l hl)]
    rfl

end

namespace Formula

/-- Both formulas, with the variables of the second one after those of the first. -/
def beside (f g : Formula) : Formula :=
  { numVars := f.numVars + g.numVars
    clauses := f.clauses ++ g.clauses.map (Clause.shift f.numVars) }

/-- A formula grows when another is put beside it. -/
theorem grows_beside (f g : Formula) : f.Grows (f.beside g) :=
  ⟨Nat.le_add_right _ _, List.prefix_append _ _⟩

/-- Some list of values makes no clause false if and only if one of them is the first. -/
theorem exists_isFirst_or_unsat (f : Formula) :
    (∃ values, f.IsFirst values) ∨ f.decide.verdict = .unsat := by
  rcases verdict_decide f with ⟨node, hnode, -⟩ | ⟨hverdict, -⟩
  · exact Or.inl ⟨_, isFirst_filled hnode⟩
  · exact Or.inr hverdict

/-- The verdict when the first list of values is known. -/
theorem verdict_of_isFirst {f : Formula} {values : List Bool} (h : f.IsFirst values) :
    f.decide.verdict
      = .sat (values.take (f.needed values)
          ++ List.replicate (f.numVars - f.needed values) false).toArray :=
  (decide_eq_sat_iff f _).mpr ⟨values, h, by simp⟩

/-- No more values are needed once every clause is true. -/
theorem needed_le {f : Formula} {values : List Bool} {k : Nat}
    (h : (Assignment.ofList (values.take k)).satisfies f.clauses = true) : f.needed values ≤ k := by
  rw [needed]
  cases hfind : (List.range f.numVars).find? fun k =>
      (Assignment.ofList (values.take k)).satisfies f.clauses with
  | none =>
    rw [List.find?_range_eq_none] at hfind
    by_contra hlt
    have hopen := hfind k (Nat.lt_of_not_le hlt)
    simp [h] at hopen
  | some i =>
    obtain ⟨-, -, hbefore⟩ := List.find?_range_eq_some.mp hfind
    by_contra hlt
    have hopen := hbefore k (Nat.lt_of_not_le hlt)
    simp [h] at hopen

variable {f g : Formula} {p q : List Bool}

section
variable (hf : f.Closed) (hg : g.Closed) (hp : p.length = f.numVars)
include hf hg hp

/-- What the clauses of both are under values for both. -/
theorem map_eval_beside :
    (f.beside g).clauses.map (Clause.eval (.ofList (p ++ q)))
      = f.clauses.map (Clause.eval (.ofList p)) ++ g.clauses.map (Clause.eval (.ofList q)) := by
  rw [beside, List.map_append, List.map_map, ← hp]
  refine congrArg₂ _ ?_ ?_
  · exact List.map_congr_left fun c hc => Clause.eval_append fun l hl => hp ▸ hf c hc l hl
  · exact List.map_congr_left fun c hc => Clause.eval_shift fun l hl => (hg c hc l hl).1

/-- Two formulas beside each other are refuted if either is, each by its own values. -/
theorem refutes_beside :
    (Assignment.ofList (p ++ q)).refutes (f.beside g).clauses
      = ((Assignment.ofList p).refutes f.clauses || (Assignment.ofList q).refutes g.clauses) := by
  simp only [Assignment.refutes_eq_any, map_eval_beside hf hg hp, List.any_append]

/-- They are satisfied if both are. -/
theorem satisfies_beside :
    (Assignment.ofList (p ++ q)).satisfies (f.beside g).clauses
      = ((Assignment.ofList p).satisfies f.clauses && (Assignment.ofList q).satisfies g.clauses) := by
  simp only [Assignment.satisfies_eq_all, map_eval_beside hf hg hp, List.all_append]

/-- They admit values exactly if each admits its own. -/
theorem admits_beside_iff : (f.beside g).Admits (p ++ q) ↔ f.Admits p ∧ g.Admits q := by
  rw [Admits, Admits, Admits, refutes_beside hf hg hp, Bool.or_eq_false_iff, List.length_append, hp]
  show f.numVars + q.length = f.numVars + g.numVars ∧ _ ↔ _
  rw [Nat.add_left_cancel_iff]
  tauto

end

/-- Values for both that make no clause false are values for the one followed by values for the other. -/
theorem exists_of_admits_beside (hf : f.Closed) (hg : g.Closed) {values : List Bool}
    (h : (f.beside g).Admits values) : ∃ p q, p ++ q = values ∧ f.Admits p ∧ g.Admits q := by
  have hlength : (values.take f.numVars).length = f.numVars :=
    List.length_take_of_le (h.1 ▸ Nat.le_add_right _ _)
  refine ⟨values.take f.numVars, values.drop f.numVars, List.take_append_drop _ _, ?_⟩
  rwa [← admits_beside_iff hf hg hlength, List.take_append_drop]

/-- The first list for both is the first one for each. -/
theorem isFirst_beside (hf : f.Closed) (hg : g.Closed) (hfirst : f.IsFirst p) (hfirst' : g.IsFirst q) :
    (f.beside g).IsFirst (p ++ q) where
  admits := (admits_beside_iff hf hg hfirst.admits.1).mpr ⟨hfirst.admits, hfirst'.admits⟩
  earliest other hother := by
    obtain ⟨p', q', rfl, hp', hq'⟩ := exists_of_admits_beside hf hg hother
    -- The variables of `f` come first, so those of `g` count only where those of `f` agree.
    rcases hfirst.earliest p' hp' with rfl | hearlier
    · exact (hfirst'.earliest q' hq').imp (congrArg _) fun h => List.Lex.append_left _ h p'
    · exact Or.inr (hearlier.append (hfirst.admits.1.trans hp'.1.symm) q q')

/-- All variables of a closed formula have values at the end, so its clauses are true if none is false. -/
theorem satisfies_of_admits (hf : f.Closed) (h : f.Admits p) :
    (Assignment.ofList p).satisfies f.clauses = true := by
  have hsound := Assignment.refutes_eq_false_iff.mp h.2
  refine Assignment.satisfies_eq_true_iff.mpr fun c hc => ?_
  refine Clause.eval_eq_some_true_of_ne (fun l hl => ?_) (hsound c hc)
  exact (Assignment.covers_ofList p l.var).mpr (h.1.symm ▸ hf c hc l hl)

/-- While only variables of `f` have values, no clause of `g` is true. -/
theorem satisfies_beside_of_le (hg : g.Closed) (hclauses : g.clauses ≠ []) {node : List Bool}
    (hnode : node.length ≤ f.numVars) :
    (Assignment.ofList node).satisfies (f.beside g).clauses = false := by
  obtain ⟨c, hc⟩ := List.exists_mem_of_ne_nil _ hclauses
  rw [Bool.eq_false_iff]
  intro hsatisfies
  have htrue := Assignment.satisfies_eq_true_iff.mp hsatisfies (c.shift f.numVars)
    (List.mem_append_right _ (List.mem_map_of_mem hc))
  obtain ⟨_, hmem, hl⟩ := Clause.eval_eq_some_true_iff.mp htrue
  obtain ⟨l, hl', rfl⟩ := List.mem_map.mp hmem
  -- The variable of a true literal has a value, and so it is one of `f`.
  have hvalue := Literal.eval_isSome (Assignment.ofList node) (l.shift f.numVars)
  rw [hl, Option.isSome_some] at hvalue
  have hle : f.numVars + l.var ≤ node.length :=
    ((Assignment.covers_ofList node _).mp hvalue.symm).2
  have hpos := (hg c hc l hl').1
  omega

/-- Of the values for `g`, those are needed that `g` alone needs. -/
theorem needed_beside (hf : f.Closed) (hg : g.Closed) (hp : f.Admits p) (hclauses : g.clauses ≠ []) :
    (f.beside g).needed (p ++ q) = f.numVars + g.needed q := by
  have hlength : p.length = f.numVars := hp.1
  -- While `f` lacks a value, the clauses of `g` have none at all, and there are some.
  have hbefore : (List.range f.numVars).find? (fun k =>
      (Assignment.ofList ((p ++ q).take k)).satisfies (f.beside g).clauses) = none := by
    rw [List.find?_range_eq_none]
    intro k hk
    rw [satisfies_beside_of_le hg hclauses ((List.length_take_le _ _).trans (Nat.le_of_lt hk))]
    rfl
  -- From then on the clauses of `f` are true, and those of `g` decide.
  have hafter : ∀ k, (Assignment.ofList ((p ++ q).take (f.numVars + k))).satisfies (f.beside g).clauses
      = (Assignment.ofList (q.take k)).satisfies g.clauses := by
    intro k
    rw [← hlength, List.take_length_add_append, satisfies_beside hf hg hlength,
      satisfies_of_admits hf hp, Bool.true_and]
  show ((List.range (f.numVars + g.numVars)).find? _).getD (f.numVars + g.numVars) = _
  rw [List.range_add, List.find?_append, hbefore, Option.none_or, List.find?_map, needed]
  simp only [Function.comp_def, hafter]
  exact Option.getD_map (f.numVars + ·) g.numVars _

/-- The values that are kept of the first list for both, padded with false values, are values for `f`
followed by what is kept of the first list for `g`. -/
theorem exists_padded_beside (hf : f.Closed) (hg : g.Closed) (hp : f.Admits p) :
    ∃ head : List Bool, head.length = f.numVars ∧
      (p ++ q).take ((f.beside g).needed (p ++ q))
          ++ List.replicate ((f.beside g).numVars - (f.beside g).needed (p ++ q)) false
        = head ++ (q.take (g.needed q) ++ List.replicate (g.numVars - g.needed q) false) := by
  have hlength : p.length = f.numVars := hp.1
  have hvars : (f.beside g).numVars = f.numVars + g.numVars := rfl
  by_cases hclauses : g.clauses = []
  · -- Nothing is needed for `g`. The search may stop among the variables of `f`.
    have hnone : g.needed q = 0 :=
      Nat.le_zero.mp (needed_le (by rw [hclauses]; rfl))
    have hle : (f.beside g).needed (p ++ q) ≤ f.numVars := by
      refine needed_le ?_
      rw [← hlength, List.take_left' rfl, ← List.append_nil p, satisfies_beside hf hg hlength,
        satisfies_of_admits hf hp, hclauses]
      rfl
    generalize (f.beside g).needed (p ++ q) = m at hle
    refine ⟨p.take m ++ List.replicate (f.numVars - m) false, ?_, ?_⟩
    · rw [List.length_append, List.length_take, List.length_replicate, hlength]
      omega
    · have hcount : f.numVars + g.numVars - m = f.numVars - m + g.numVars := by omega
      rw [hvars, hnone, hcount, List.replicate_add, List.take_append_of_le_length (hlength ▸ hle),
        List.take_zero, Nat.sub_zero, List.nil_append, List.append_assoc]
  · refine ⟨p, hlength, ?_⟩
    rw [needed_beside hf hg hp hclauses, hvars, Nat.add_sub_add_left, ← hlength,
      List.take_length_add_append, List.append_assoc]

/-- Where both formulas stand side by side, deciding finds a model exactly if it finds one for `g`, and
gives the variables of `g` the values of that one. -/
theorem verdict_beside (hf : f.Closed) (hg : g.Closed) (hmodel : f.HasModel) :
    (∃ (head : List Bool) (model : Array Bool), head.length = f.numVars ∧
        g.decide.verdict = .sat model ∧
        (f.beside g).decide.verdict = .sat (head ++ model.toList).toArray) ∨
      g.decide.verdict = .unsat ∧ (f.beside g).decide.verdict = .unsat := by
  -- A formula with a model has a first one, and what comes after it is decided on its own.
  obtain ⟨p, hp⟩ : ∃ p, f.IsFirst p := by
    refine (exists_isFirst_or_unsat f).resolve_right fun hunsat => ?_
    rcases decide_cases_of_closed hf with ⟨_, -, -, hsat⟩ | ⟨-, hnone⟩
    · exact nomatch hsat.symm.trans hunsat
    · exact hnone hmodel
  rcases exists_isFirst_or_unsat g with ⟨q, hq⟩ | hunsat
  · obtain ⟨head, hhead, hpadded⟩ := exists_padded_beside (q := q) hf hg hp.admits
    have hverdict := verdict_of_isFirst (isFirst_beside hf hg hp hq)
    rw [hpadded] at hverdict
    exact Or.inl ⟨head, _, hhead, verdict_of_isFirst hq, hverdict⟩
  · refine Or.inr ⟨hunsat, (exists_isFirst_or_unsat _).resolve_left ?_⟩
    rintro ⟨values, hvalues⟩
    obtain ⟨_, q, -, -, hq⟩ := exists_of_admits_beside hf hg hvalues.admits
    have hrefutes := (verdict_eq_unsat_iff g).mp hunsat q hq.1
    rw [hq.2] at hrefutes
    exact Bool.false_ne_true hrefutes

end Formula
end VennDiagram
