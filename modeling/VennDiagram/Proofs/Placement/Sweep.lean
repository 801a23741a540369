import Mathlib.Logic.Function.Iterate
import VennDiagram.Proofs.Number.Order
import VennDiagram.Proofs.Placement.Candidates

/-!
# `VennDiagram.Proofs.Placement.Sweep`: the two loops over a grid

A grid is swept by two loops, one inside the other. Each goes on as long as its value has not passed the
last one, and adds the step in every round. `Loop` is such a loop with any body: a derivation is a run
that leaves the loop, and a loop that is never left has none. A `Sweep` is one loop in another.

`scan` does not run a loop that is not left. It gives up when the step does not move it forward, or when
its fuel is used up. Neither loses a run:

* A value that is not moved forward is never passed, if the step is `Steady`.
* As long as values increase, the bound on their number is large enough (`AmpleBound`).

So a scan gives the values that the loop visits, and gives nothing if and only if the loop is never left
(`scanBetween_eq_some_iff`), and the grid has its points if and only if the sweep is over
(`gridPoints_eq_some_iff`).

The values of a scan increase, so the points of a grid stand in the order of their columns, and in each
column in the order of their rows (`pairwise_eligibleDots`).
-/

set_option autoImplicit false

namespace VennDiagram

/-- A list whose elements are the values at those of another is the list of values. -/
theorem forall₂_eq_map_iff {β γ : Type} {f : β → γ} {xs : List β} {ys : List γ} :
    List.Forall₂ (fun x y => y = f x) xs ys ↔ ys = xs.map f := by
  induction xs generalizing ys with
  | nil => exact List.forall₂_nil_left_iff
  | cons x xs ih => simp [List.forall₂_cons_left_iff, ih]

/-! ### Loops -/

/-- The loop that adds the step to `x` until it has passed the last value is left, and the rounds of its
body put out the list. -/
inductive Loop {α β : Type} [Scalar α] (step last : α) (body : α → List β → Prop) :
    α → List β → Prop where
  | leave {x : α} (hpassed : ¬ x ≤ last) : Loop step last body x []
  | round {x : α} {here later : List β} (hx : x ≤ last) (hhere : body x here)
      (hlater : Loop step last body (x + step) later) : Loop step last body x (here ++ later)

/-- The loop over the columns of a box, with the loop over the rows inside it, is left after these points
were visited. -/
def Sweep {α : Type} [Scalar α] (step left right top bottom : α) : List (α × α) → Prop :=
  Loop step right (fun x => Loop step bottom (fun y out => out = [(x, y)]) top) left

section
variable {α : Type} [Scalar α]

/-- The value after some steps. -/
def scanValue (step x : α) (i : ℕ) : α := (· + step)^[i] x

/-- A scan begins at its first value. -/
@[simp] theorem scanValue_zero (step x : α) : scanValue step x 0 = x := rfl

/-- Each further value is one step on. -/
theorem scanValue_succ (step x : α) (i : ℕ) : scanValue step x (i + 1) = scanValue step x i + step :=
  Function.iterate_succ_apply' _ _ _

/-- The first values of a scan. -/
def scanValues (step : α) : (x : α) → ℕ → List α
  | _, 0 => []
  | x, n + 1 => x :: scanValues step (x + step) n

/-- The values of a scan are those at its numbers. -/
theorem scanValues_eq_map (step x : α) (n : ℕ) :
    scanValues step x n = (List.range n).map (scanValue step x) := by
  induction n generalizing x with
  | zero => rfl
  | succ n ih =>
    rw [scanValues, ih, List.range_succ_eq_map, List.map_cons, List.map_map]
    rfl

/-- There are as many values as are asked for. -/
theorem length_scanValues (step x : α) (n : ℕ) : (scanValues step x n).length = n := by
  rw [scanValues_eq_map, List.length_map, List.length_range]

/-- The last value is passed after `n` steps and not before. -/
structure PassedAfter (step last x : α) (n : ℕ) : Prop where
  le : ∀ i < n, scanValue step x i ≤ last
  passed : ¬ scanValue step x n ≤ last

variable {step last x : α} {n : ℕ}

/-- A scan has passed its end at once if it does not begin before it. -/
theorem passedAfter_zero_iff : PassedAfter step last x 0 ↔ ¬ x ≤ last :=
  ⟨PassedAfter.passed, fun h => ⟨fun _ hi => absurd hi (Nat.not_lt_zero _), h⟩⟩

/-- It passes later if it begins before its end and passes from the next value on. -/
theorem passedAfter_succ_iff :
    PassedAfter step last x (n + 1) ↔ x ≤ last ∧ PassedAfter step last (x + step) n := by
  constructor
  · intro h
    exact ⟨h.le 0 n.succ_pos, fun i hi => h.le (i + 1) (Nat.succ_lt_succ hi), h.passed⟩
  · rintro ⟨hx, h⟩
    refine ⟨fun i hi => ?_, h.passed⟩
    cases i with
    | zero => exact hx
    | succ i => exact h.le i (Nat.lt_of_succ_lt_succ hi)

/-- A value is passed at some time if and only if it is passed for a first time. -/
theorem exists_passedAfter_iff :
    (∃ n, PassedAfter step last x n) ↔ ∃ n, ¬ scanValue step x n ≤ last := by
  classical
  constructor
  · rintro ⟨n, h⟩
    exact ⟨n, h.passed⟩
  · intro h
    exact ⟨Nat.find h, fun i hi => not_not.mp (Nat.find_min h hi), Nat.find_spec h⟩

/-- A loop is left after as many rounds as it takes steps to pass the last value. -/
theorem loop_iff {β : Type} {body : α → List β → Prop} {out : List β} :
    Loop step last body x out ↔
      ∃ n outs, PassedAfter step last x n ∧ List.Forall₂ body (scanValues step x n) outs ∧
        out = outs.flatten := by
  constructor
  · -- By induction on the run: every round is one step before the last value is passed.
    intro h
    induction h with
    | leave hpassed => exact ⟨0, [], passedAfter_zero_iff.mpr hpassed, .nil, rfl⟩
    | round hx hhere _ ih =>
      obtain ⟨n, outs, hpassed, hbody, rfl⟩ := ih
      exact ⟨n + 1, _ :: outs, passedAfter_succ_iff.mpr ⟨hx, hpassed⟩, .cons hhere hbody, rfl⟩
  · rintro ⟨n, outs, hpassed, hbody, rfl⟩
    induction n generalizing x outs with
    | zero =>
      cases hbody
      exact .leave (passedAfter_zero_iff.mp hpassed)
    | succ n ih =>
      obtain ⟨hx, hpassed⟩ := passedAfter_succ_iff.mp hpassed
      cases hbody with
      | cons hhere hlater => exact .round hx hhere (ih _ hpassed hlater)

/-- A loop that puts out one thing for each value. -/
theorem loop_singleton_iff {β : Type} {f : α → β} {out : List β} :
    Loop step last (fun x out => out = [f x]) x out ↔
      ∃ n, PassedAfter step last x n ∧ out = (scanValues step x n).map f := by
  have hflatten : ∀ xs : List α, (xs.map fun x => [f x]).flatten = xs.map f := fun xs => by
    rw [← List.flatMap_def, ← List.map_eq_flatMap]
  simp only [loop_iff, forall₂_eq_map_iff]
  constructor
  · rintro ⟨n, _, hpassed, rfl, rfl⟩
    exact ⟨n, hpassed, hflatten _⟩
  · rintro ⟨n, hpassed, rfl⟩
    exact ⟨n, _, hpassed, rfl, (hflatten _).symm⟩

/-! ### Scans -/

/-- A scan gives the values that are not passed, if each step moves it forward and the fuel is not used
up. -/
theorem scan_eq_some_iff {fuel : ℕ} {xs : List α} :
    scan step last fuel x = some xs ↔
      ∃ n < fuel, PassedAfter step last x n ∧
        (∀ i < n, ¬ scanValue step x (i + 1) ≤ scanValue step x i) ∧ xs = scanValues step x n := by
  -- Every value that is given takes one unit of fuel, and so does the end of the scan.
  induction fuel generalizing x xs with
  | zero => simp [scan]
  | succ fuel ih =>
    rw [scan]
    constructor
    · intro h
      split at h
      · rename_i hx
        obtain ⟨hforward, h⟩ := Option.ite_none_left_eq_some.mp h
        obtain ⟨ys, hys, rfl⟩ := Option.map_eq_some_iff.mp h
        obtain ⟨n, hn, hpassed, hadvances, rfl⟩ := ih.mp hys
        refine ⟨n + 1, Nat.succ_lt_succ hn, passedAfter_succ_iff.mpr ⟨hx, hpassed⟩, ?_, rfl⟩
        rintro (_ | i) hi
        · exact hforward
        · exact hadvances i (Nat.lt_of_succ_lt_succ hi)
      · rename_i hx
        obtain rfl := Option.some.inj h
        exact ⟨0, fuel.succ_pos, passedAfter_zero_iff.mpr hx, fun _ hi => absurd hi (Nat.not_lt_zero _), rfl⟩
    · rintro ⟨_ | n, hn, hpassed, hadvances, rfl⟩
      · rw [if_neg (passedAfter_zero_iff.mp hpassed)]
        rfl
      · obtain ⟨hx, hpassed⟩ := passedAfter_succ_iff.mp hpassed
        have hforward : ¬ x + step ≤ x := hadvances 0 n.succ_pos
        have hrest : scan step last fuel (x + step) = some (scanValues step (x + step) n) :=
          ih.mpr ⟨n, Nat.lt_of_succ_lt_succ hn, hpassed,
            fun i hi => hadvances (i + 1) (Nat.succ_lt_succ hi), rfl⟩
        simp only [hx, hforward, if_true, if_false, hrest]
        rfl

end

/-- If a step does not move a value forward, it does not move a smaller value beyond it. -/
def Steady {α : Type} [Scalar α] (step : α) : Prop := ∀ x y : α, x + step ≤ x → y ≤ x → y + step ≤ x

/-- Values that increase by equal steps are no more than their bound. -/
class AmpleBound (α : Type) [Scalar α] : Prop where
  le_scanBound : ∀ {step first last : α} {n : ℕ}, (∀ i < n, scanValue step first i ≤ last) →
    (∀ i, i + 1 < n → scanValue step first i < scanValue step first (i + 1)) →
    n ≤ Scalar.scanBound first last step

section
variable {α : Type} [Scalar α] [LinearScalar α] {step first last : α} {n : ℕ}

/-- Where the last value is passed after all, every step on the way was a step forward. -/
theorem Steady.advances (hsteady : Steady step) (h : PassedAfter step last first n) :
    ∀ i < n, ¬ scanValue step first (i + 1) ≤ scanValue step first i := by
  intro i hi hstall
  rw [scanValue_succ] at hstall
  -- From where the scan stalls, no value is greater.
  have hbelow : ∀ j ≥ i, scanValue step first j ≤ scanValue step first i := by
    intro j hj
    induction j, hj using Nat.le_induction with
    | base => exact (LinearScalar.le_self_of_le hstall).2
    | succ j _ ih =>
      rw [scanValue_succ]
      exact hsteady _ _ hstall ih
  exact h.passed (LinearScalar.le_trans (hbelow n hi.le) (h.le i hi))

/-- Where the first step is no step forward, the last value is never passed. -/
theorem Steady.not_passedAfter (hsteady : Steady step) (hstall : first + step ≤ first)
    (hfirst : first ≤ last) : ¬ PassedAfter step last first n := by
  intro h
  cases n with
  | zero => exact passedAfter_zero_iff.mp h hfirst
  | succ n => exact hsteady.advances h 0 n.succ_pos hstall

/-- Where every step is a step forward, the last value is passed at some time. -/
theorem exists_passedAfter_of_forward [AmpleBound α] (hfirst : first ≤ first)
    (hforward : ∀ x, first ≤ x → x ≤ last → x < x + step) : ∃ n, PassedAfter step last first n := by
  rw [exists_passedAfter_iff]
  by_contra hnever
  have hle : ∀ i, scanValue step first i ≤ last := fun i => not_not.mp fun h => hnever ⟨i, h⟩
  have hbeyond : ∀ i, first ≤ scanValue step first i := by
    intro i
    induction i with
    | zero => exact hfirst
    | succ i ih =>
      rw [scanValue_succ]
      exact LinearScalar.le_trans ih (Scalar.le_of_lt (hforward _ ih (hle i)))
  have hlt : ∀ i, scanValue step first i < scanValue step first (i + 1) := by
    intro i
    rw [scanValue_succ]
    exact hforward _ (hbeyond i) (hle i)
  -- Then there were more values than there can be.
  have hbound : Scalar.scanBound first last step + 1 ≤ Scalar.scanBound first last step :=
    AmpleBound.le_scanBound (fun i _ => hle i) fun i _ => hlt i
  exact absurd hbound (Nat.not_succ_le_self _)

/-- Before the last value is passed, a step forward is a step to a greater value. -/
theorem PassedAfter.lt_succ (h : PassedAfter step last first n)
    (hadvances : ∀ i < n, ¬ scanValue step first (i + 1) ≤ scanValue step first i) {i : ℕ}
    (hi : i + 1 < n) : scanValue step first i < scanValue step first (i + 1) := by
  have hnumber : ∀ j < n, scanValue step first j ≤ scanValue step first j := fun j hj =>
    (LinearScalar.le_self_of_le (h.le j hj)).1
  have hi' : i < n := Nat.lt_of_succ_lt hi
  exact (OrderedScalar.lt_iff_not_le _ _ (hnumber i hi') (hnumber (i + 1) hi)).mpr (hadvances i hi')

/-- Values that increase from each to the next increase. -/
theorem pairwise_scanValues
    (hlt : ∀ i, i + 1 < n → scanValue step first i < scanValue step first (i + 1)) :
    (scanValues step first n).Pairwise (· < ·) := by
  have hall : ∀ i j, i < j → j < n → scanValue step first i < scanValue step first j := by
    intro i j hij
    induction j, hij using Nat.le_induction with
    | base => exact hlt i
    | succ j _ ih =>
      intro hj
      exact Scalar.lt_of_lt_of_le (ih (Nat.lt_of_succ_lt hj)) (Scalar.le_of_lt (hlt j hj))
  rw [scanValues_eq_map, List.pairwise_map]
  exact List.pairwise_lt_range.imp_of_mem fun _ hj hij => hall _ _ hij (List.mem_range.mp hj)

/-- The values of a scan that ends grow. -/
theorem pairwise_lt_of_scanBetween {xs : List α} (hxs : scanBetween step first last = some xs) :
    xs.Pairwise (· < ·) := by
  obtain ⟨n, -, hpassed, hadvances, rfl⟩ := scan_eq_some_iff.mp hxs
  exact pairwise_scanValues fun i hi => hpassed.lt_succ hadvances hi

/-- A scan gives the values that are not passed, and gives nothing if none is ever passed. -/
theorem scanBetween_eq_some_iff [AmpleBound α] (hsteady : Steady step) {xs : List α} :
    scanBetween step first last = some xs ↔
      ∃ n, PassedAfter step last first n ∧ xs = scanValues step first n := by
  rw [scanBetween, scan_eq_some_iff]
  constructor
  · rintro ⟨n, -, hpassed, -, hxs⟩
    exact ⟨n, hpassed, hxs⟩
  · rintro ⟨n, hpassed, hxs⟩
    have hadvances := hsteady.advances hpassed
    have hbound : n ≤ Scalar.scanBound first last step :=
      AmpleBound.le_scanBound hpassed.le fun i hi => hpassed.lt_succ hadvances hi
    exact ⟨n, Nat.lt_succ_of_le hbound, hpassed, hadvances, hxs⟩

end

/-! ### Grids -/

section
variable {α : Type} [Scalar α] {step left right top bottom : α} {points : List (α × α)}

/-- A grid is made of its columns. The scan of the rows is the same for each of them, and it does not
count if there is no column. -/
theorem gridPoints_eq_some_iff_columns :
    gridPoints step left right top bottom = some points ↔
      ∃ xs, scanBetween step left right = some xs ∧
        ∃ columns, List.Forall₂
            (fun x column => ∃ ys, scanBetween step top bottom = some ys ∧ column = ys.map (x, ·))
            xs columns ∧
          points = columns.flatten := by
  rw [gridPoints]
  cases scanBetween step left right with
  | none => simp
  | some xs =>
    cases xs with
    | nil => simp [eq_comm]
    | cons x xs =>
      cases scanBetween step top bottom with
      | none => simp [List.forall₂_cons_left_iff]
      | some ys => simp [forall₂_eq_map_iff, List.flatMap_def, eq_comm]

/-- Two loops, one inside the other, are left if the outer one is not entered, or if each is left. -/
theorem exists_sweep_iff :
    (∃ points, Sweep step left right top bottom points) ↔
      (left ≤ right → (∃ n, PassedAfter step right left n) ∧ ∃ n, PassedAfter step bottom top n) := by
  simp only [Sweep, loop_iff]
  constructor
  · rintro ⟨_, n, columns, hpassed, hcolumns, -⟩ henter
    refine ⟨⟨n, hpassed⟩, ?_⟩
    cases n with
    | zero => exact absurd henter (passedAfter_zero_iff.mp hpassed)
    | succ n =>
      -- The rows are those of the first column.
      obtain ⟨column, _, hcolumn, -, -⟩ := List.forall₂_cons_left_iff.mp hcolumns
      obtain ⟨m, _, hrows, -, -⟩ := loop_iff.mp hcolumn
      exact ⟨m, hrows⟩
  · intro h
    by_cases henter : left ≤ right
    · obtain ⟨⟨n, hcolumns⟩, m, hrows⟩ := h henter
      have hcolumn : ∀ x ∈ scanValues step left n,
          Loop step bottom (fun y out => out = [(x, y)]) top ((scanValues step top m).map (x, ·)) :=
        fun x _ => loop_singleton_iff.mpr ⟨m, hrows, rfl⟩
      exact ⟨_, n, _, hcolumns, List.forall₂_map_right_iff.mpr (List.forall₂_same.mpr hcolumn), rfl⟩
    · exact ⟨[], 0, [], passedAfter_zero_iff.mpr henter, .nil, rfl⟩

end

section
variable {α : Type} [Scalar α] [LinearScalar α] {step left right top bottom : α}
  {points : List (α × α)}

/-- A grid has the points that the two loops visit, and no points if they are never left. -/
theorem gridPoints_eq_some_iff [AmpleBound α] (hsteady : Steady step) :
    gridPoints step left right top bottom = some points ↔ Sweep step left right top bottom points := by
  simp only [gridPoints_eq_some_iff_columns, scanBetween_eq_some_iff hsteady]
  rw [Sweep, loop_iff]
  constructor
  · rintro ⟨_, ⟨n, hpassed, rfl⟩, columns, hcolumns, rfl⟩
    refine ⟨n, columns, hpassed, hcolumns.imp ?_, rfl⟩
    rintro x _ ⟨_, ⟨m, hpassed, rfl⟩, rfl⟩
    exact loop_singleton_iff.mpr ⟨m, hpassed, rfl⟩
  · rintro ⟨n, columns, hpassed, hcolumns, rfl⟩
    refine ⟨_, ⟨n, hpassed, rfl⟩, columns, hcolumns.imp ?_, rfl⟩
    intro x _ hloop
    obtain ⟨m, hpassed, rfl⟩ := loop_singleton_iff.mp hloop
    exact ⟨_, ⟨m, hpassed, rfl⟩, rfl⟩

/-- Points in the order of their columns, and in each column in the order of their rows. -/
def GridBefore (p q : α × α) : Prop := p.1 < q.1 ∨ p.1 = q.1 ∧ p.2 < q.2

/-- The points of a grid stand in its order. So each of them is there once. -/
theorem pairwise_gridPoints (hpoints : gridPoints step left right top bottom = some points) :
    points.Pairwise GridBefore := by
  rw [gridPoints] at hpoints
  split at hpoints
  · exact absurd hpoints (by simp)
  · obtain rfl := Option.some.inj hpoints
    exact .nil
  · rename_i hxs
    obtain ⟨ys, hys, rfl⟩ := Option.map_eq_some_iff.mp hpoints
    have hrows := pairwise_lt_of_scanBetween hys
    have hcolumns := pairwise_lt_of_scanBetween hxs
    -- Within a column the points go down, and from one column to the next they go right.
    rw [List.pairwise_flatMap]
    constructor
    · intro x _
      rw [List.pairwise_map]
      exact hrows.imp fun h => Or.inr ⟨rfl, h⟩
    · refine hcolumns.imp fun h p hp q hq => ?_
      obtain ⟨y, -, rfl⟩ := List.mem_map.mp hp
      obtain ⟨y', -, rfl⟩ := List.mem_map.mp hq
      exact Or.inl h

/-- The place of a candidate. -/
def DotCandidate.point (dot : DotCandidate α) : α × α := (dot.x, dot.y)

/-- Candidates are found in the order of the grid. -/
theorem pairwise_eligibleDots {rules : Rules α} {circles : List (Circle α)} {members : List String}
    {eligible : List (DotCandidate α)} (heligible : eligibleDots rules circles members = some eligible) :
    eligible.Pairwise fun a b => GridBefore a.point b.point := by
  rw [eligibleDots] at heligible
  split at heligible
  · obtain rfl := Option.some.inj heligible
    exact .nil
  · obtain ⟨points, hpoints, rfl⟩ := Option.map_eq_some_iff.mp heligible
    rw [List.pairwise_filterMap]
    refine (pairwise_gridPoints hpoints).imp fun hbefore a ha b hb => ?_
    obtain ⟨_, -, rfl⟩ := Option.map_eq_some_iff.mp ha
    obtain ⟨_, -, rfl⟩ := Option.map_eq_some_iff.mp hb
    exact hbefore

end
end VennDiagram
