import VennDiagram.Proofs.Formula.Consistency

/-!
# `VennDiagram.Proofs.Formula.Balance`: what the counts of a search add up to

A search counts its tries, the tries that failed, and the decisions it gave up, each where it happens in
one of the two loops. In every state the three counts are tied to the trail (`Effort.Balances`):

* A decision that was given up took two tries. Of the decisions in force, a false one took two and a true
  one took one.
* Where a branch failed in which `k` decisions were given up, `k + 1` tries failed. Such branches are the
  true ones of the false decisions in force, and that of the newest decision when the search goes back.

A step keeps the balance (`Step.balanced`), in the middle of a retreat as well. At the end it says that
the search was a walk through a binary tree: `decide_effort_balanced`.
-/

set_option autoImplicit false

namespace VennDiagram.Search

variable {f : Formula} {s s' : State} {tried : List (List Bool)} {trail : List Decision}
  {p : Progress}

/-! ### Counts and trails -/

/-- The number of decisions of a trail that are false. -/
def falses (trail : List Decision) : Nat := trail.countP fun d => !d.value

/-- A variable that is true is not counted. -/
@[simp] theorem falses_cons_true (var : Nat) (trail : List Decision) :
    falses (⟨var, true⟩ :: trail) = falses trail := rfl

/-- A variable that is false is. -/
@[simp] theorem falses_cons_false (var : Nat) (trail : List Decision) :
    falses (⟨var, false⟩ :: trail) = falses trail + 1 :=
  List.countP_cons_of_pos rfl

/-- No more variables are false than have a value. -/
theorem falses_le_length (trail : List Decision) : falses trail ≤ trail.length := List.countP_le_length

/-- The counts belong to a trail. The number of failed tries that nothing has been done about yet is one
or zero. -/
structure Balances (e : Effort) (trail : List Decision) (failed : Nat) : Prop where
  decisions_eq : e.decisions = 2 * e.backtracks + trail.length + falses trail
  conflicts_eq : e.conflicts = e.backtracks + falses trail + failed

/-- The effort after a try. -/
theorem effort_decide (o : Occurrences) (p : Progress) (d : Decision) :
    (p.decide o d.var d.value).1.effort
      = { p.effort with
          decisions := p.effort.decisions + 1
          conflicts :=
            if (p.decide o d.var d.value).2 then p.effort.conflicts else p.effort.conflicts + 1 } := rfl

/-! ### Every state -/

/-- The counts belong to the trail. When a decision is about to be made, they belong to the trail with
it, but for the try. -/
def State.Balanced : State → Prop
  | .onward trail p => Balances p.effort trail 0
  | .trying d trail p =>
    Balances { p.effort with decisions := p.effort.decisions + 1 } (d :: trail) 0
  | .back trail p => Balances p.effort trail 1
  | .stopped (some trail) p => Balances p.effort trail 0
  | .stopped none p => Balances p.effort [] 1

/-- A step leaves a search in balance. -/
theorem Step.balanced (h : Step f s s') (hs : s.Balanced) : s'.Balanced := by
  cases h with
  | finish hstop => exact hs
  | @choose trail p hopen hroom =>
    obtain ⟨hdecisions, hconflicts⟩ := hs
    refine ⟨?_, hconflicts⟩
    show p.effort.decisions + 1 = 2 * p.effort.backtracks + (trail.length + 1) + falses trail
    omega
  | @enter d trail p hflag =>
    show Balances _ (d :: trail) 0
    rw [effort_decide, hflag]
    exact hs
  | @clash d trail p hflag =>
    obtain ⟨hdecisions, hconflicts⟩ := hs
    show Balances _ (d :: trail) 1
    rw [effort_decide, hflag]
    exact ⟨hdecisions, congrArg (· + 1) hconflicts⟩
  | @flip var trail p =>
    -- The failed try of the true value is what the false decision brings into the balance.
    obtain ⟨hdecisions, hconflicts⟩ := hs
    rw [falses_cons_true, List.length_cons] at hdecisions
    rw [falses_cons_true] at hconflicts
    constructor
    · show p.effort.decisions + 1
        = 2 * p.effort.backtracks + (trail.length + 1) + falses (⟨var, false⟩ :: trail)
      rw [falses_cons_false]
      omega
    · show p.effort.conflicts = p.effort.backtracks + falses (⟨var, false⟩ :: trail) + 0
      rw [falses_cons_false]
      omega
  | @giveUp var trail p =>
    obtain ⟨hdecisions, hconflicts⟩ := hs
    rw [falses_cons_false, List.length_cons] at hdecisions
    rw [falses_cons_false] at hconflicts
    constructor
    · show p.effort.decisions = 2 * (p.effort.backtracks + 1) + trail.length + falses trail
      omega
    · show p.effort.conflicts = p.effort.backtracks + 1 + falses trail + 1
      omega
  | fail => exact hs

/-- Every search that is reached is in balance. -/
theorem Reached.balanced (h : Reached f tried s) : s.Balanced := by
  induction h with
  | start => exact ⟨rfl, rfl⟩
  | step _ hstep ih => exact hstep.balanced ih

/-- The variables of a trail that are false are those that its false decisions are about. -/
theorem Fits.countP_eq_falses (h : Fits f trail p) :
    (trail.countP fun d => p.counters.value? d.var = some false) = falses trail := by
  refine List.countP_congr fun d hd => ?_
  rw [h.value?_of_mem hd]
  cases d.value <;> decide

end VennDiagram.Search

namespace VennDiagram.Formula

open Search

variable {f : Formula}

/-! ### Main result -/

/-- Without an empty clause, deciding is a run. -/
theorem decide_of_notMem (hempty : [] ∉ f.clauses) :
    f.decide.effort = (run f).2.effort ∧ (f.decide.verdict = .unsat ↔ (run f).1 = none) := by
  rw [decide, any_isEmpty_eq_false hempty, if_neg Bool.false_ne_true]
  cases run f with
  | mk answer p => cases answer <;> simp

/-- The counts of a search describe a walk through a binary tree. If there is no model, every decision was
given up after two tries, and one more try failed than decisions were given up. If there is one, the
decisions that are left at the end come on top: each was tried, and the false ones were tried twice and
failed once. -/
theorem decide_effort_balanced (f : Formula) (hempty : [] ∉ f.clauses) :
    (f.decide.verdict = .unsat →
      f.decide.effort.decisions = 2 * f.decide.effort.backtracks ∧
      f.decide.effort.conflicts = f.decide.effort.backtracks + 1) ∧
    (∀ model, f.decide.verdict = .sat model →
      ∃ trail p, run f = (some trail, p) ∧
        f.decide.effort.conflicts = f.decide.effort.backtracks
          + trail.countP (fun d => p.counters.value? d.var = some false) ∧
        f.decide.effort.decisions = 2 * f.decide.effort.backtracks + trail.length
          + trail.countP (fun d => p.counters.value? d.var = some false)) := by
  obtain ⟨heffort, hverdict⟩ := decide_of_notMem hempty
  obtain ⟨tried, hreached⟩ := reached_run f
  have hbalanced := hreached.balanced
  have hconsistent := hreached.consistent
  rw [heffort, hverdict]
  -- The balance is an invariant of the steps, so it holds where the run ends: with one conflict more
  -- than it went back, or with the trail of a model.
  cases hrun : run f with
  | mk answer p =>
    rw [hrun] at hbalanced hconsistent hverdict
    cases answer with
    | none =>
      obtain ⟨hdecisions, hconflicts⟩ : Balances p.effort [] 1 := hbalanced
      refine ⟨fun _ => ⟨hdecisions, hconflicts⟩, fun model hmodel => ?_⟩
      exact nomatch hmodel.symm.trans (hverdict.mpr rfl)
    | some trail =>
      obtain ⟨hdecisions, hconflicts⟩ : Balances p.effort trail 0 := hbalanced
      have hfits : Fits f trail p := hconsistent
      refine ⟨fun hnone => (nomatch hnone), fun model _ => ⟨trail, p, rfl, ?_⟩⟩
      rw [hfits.countP_eq_falses]
      exact ⟨hconflicts, hdecisions⟩

/-- The first variable fails with both values of the second below it, and the second is flipped again
below the false value of the first. -/
theorem decide_effort_balanced_three :
    let f : Formula :=
      ⟨3, [[.no 1, .no 2], [.no 1, .yes 2], [.no 2], [.yes 1, .yes 2, .yes 3]]⟩
    [] ∉ f.clauses ∧ f.decide.verdict = .sat #[false, false, true] ∧
      f.decide.effort = ⟨7, 3, 1⟩ ∧
      ∃ trail p, run f = (some trail, p) ∧
        f.decide.effort.conflicts = f.decide.effort.backtracks
          + trail.countP (fun d => p.counters.value? d.var = some false) ∧
        f.decide.effort.decisions = 2 * f.decide.effort.backtracks + trail.length
          + trail.countP (fun d => p.counters.value? d.var = some false) := by
  intro f
  have hempty : [] ∉ f.clauses := by decide
  have hverdict : f.decide.verdict = .sat #[false, false, true] := by decide +kernel
  exact ⟨hempty, hverdict, by decide +kernel, (decide_effort_balanced f hempty).2 _ hverdict⟩

end VennDiagram.Formula
