import VennDiagram.Order.Merge

/-!
# `VennDiagram.Order.Runs`: sorting by merging runs

A list is cut into runs that are in order already, or fall strictly and are turned around. A run that is
too short is filled up by inserting the elements after it. Neighbouring runs are merged as they come; the
power of the border between two runs says how soon, so that the merges are balanced.

By a comparison that orders the elements this is a stable sort, like any other. What it does with a
comparison that leaves elements without an order, such as that of numbers and not-a-numbers, is fixed by
the comparisons it makes, and that is what it is for.
-/

set_option autoImplicit false

namespace VennDiagram.Order

variable {α : Type}

/-! ### Runs -/

/-- The elements of a list for as long as each is related to the one before it, and the rest. -/
def chain (related : α → α → Bool) (before : α) : List α → List α × List α
  | [] => ([], [])
  | x :: rest =>
    if related before x then
      let (run, rest) := chain related x rest
      (x :: run, rest)
    else ([], x :: rest)

/-- The run a list begins with, in order, and the rest. -/
def firstRun (lt : α → α → Bool) : List α → List α × List α
  | x :: y :: rest =>
    -- Only a run that falls strictly is turned around, so equal elements stay in order.
    if lt y x then
      let (run, rest) := chain (fun before x => lt x before) y rest
      ((x :: y :: run).reverse, rest)
    else
      let (run, rest) := chain (fun before x => !lt x before) y rest
      (x :: y :: run, rest)
  | short => (short, [])

/-- A run with one more element, after those that are not greater. -/
def insert (lt : α → α → Bool) (run : List α) (x : α) : List α :=
  let place := bisect (fun i => run[i]?.any fun y => !lt x y) 0 run.length
  run.take place ++ x :: run.drop place

/-- A count halved until it is below 64, and one more if anything was lost in that. -/
def halved (count lost : Nat) : Nat :=
  if count < 64 then count + lost else halved (count / 2) (max lost (count % 2))
termination_by count
decreasing_by omega

/-- The least length of the runs of a list. A list of fewer than 64 elements is one run. -/
def leastRun (count : Nat) : Nat := halved count 0

/-- The next run of at least `least` elements, if there are so many, and the rest. -/
def nextRun (lt : α → α → Bool) (least : Nat) (xs : List α) : List α × List α :=
  let (run, rest) := firstRun lt xs
  let missing := least - run.length
  ((rest.take missing).foldl (insert lt) run, rest.drop missing)

/-! ### Merging -/

/-- The number of the first binary digit after the point in which `a / count` and `b / count` differ; both
are below two. The fuel bounds the digits. -/
def power (count : Nat) : (fuel a b : Nat) → Nat
  | 0, _, _ => 0
  | fuel + 1, a, b =>
    -- `a` is the lesser one, so where its digit is one, that of `b` is too.
    if count ≤ a then 1 + power count fuel (2 * (a - count)) (2 * (b - count))
    else if count ≤ b then 1
    else 1 + power count fuel (2 * a) (2 * b)

/-- Runs that are still to be merged: the last one, and those before it, the nearest one first, each with
the power of the border after it. -/
structure Pending (α : Type) where
  last : List α
  before : List (List α × Nat)
  patience : Nat

/-- Merges the last run with those before it, as long as the border between them has more than the given
power. -/
def mergeAbove (lt : α → α → Bool) (limit patience : Nat) (last : List α) :
    (before : List (List α × Nat)) → Pending α
  | [] => ⟨last, [], patience⟩
  | (run, p) :: before =>
    if limit < p then
      let (merged, patience) := mergeRuns lt patience run last
      mergeAbove lt limit patience merged before
    else ⟨last, (run, p) :: before, patience⟩

/-- The runs with one more. `count` is the number of all elements. -/
def Pending.push (lt : α → α → Bool) (count : Nat) (s : Pending α) (run : List α) : Pending α :=
  let start := s.before.foldl (fun n (r, _) => n + r.length) 0
  -- The middles of the two runs are doubled, so that no half is lost.
  let middle := 2 * start + s.last.length
  let p := power count (count + 1) middle (middle + s.last.length + run.length)
  let s := mergeAbove lt p s.patience s.last s.before
  { s with last := run, before := (s.last, p) :: s.before }

/-- Merges what is left. The last run waits as long as the run before the one before it is shorter. -/
def mergeAll (lt : α → α → Bool) (patience : Nat) (last : List α) :
    (before : List (List α × Nat)) → List α
  | [] => last
  | [(run, _)] => (mergeRuns lt patience run last).1
  | (second, _) :: (third, p) :: before =>
    if third.length < last.length then
      let (merged, patience) := mergeRuns lt patience third second
      mergeAll lt patience last ((merged, p) :: before)
    else
      let (merged, patience) := mergeRuns lt patience second last
      mergeAll lt patience merged ((third, p) :: before)
termination_by before => before.length

/-- Cuts a list into runs and merges them. The fuel bounds the runs. -/
def sortRuns (lt : α → α → Bool) (count least : Nat) :
    (fuel : Nat) → Pending α → List α → Pending α
  | 0, s, _ => s
  | _ + 1, s, [] => s
  | fuel + 1, s, xs =>
    let (run, rest) := nextRun lt least xs
    sortRuns lt count least fuel (s.push lt count run) rest

/-- Sorts a list; of elements of which none is less than the other, the earlier comes first. -/
def sort (lt : α → α → Bool) (xs : List α) : List α :=
  let least := leastRun xs.length
  let (run, rest) := nextRun lt least xs
  let s := sortRuns lt xs.length least xs.length ⟨run, [], worthwhile⟩ rest
  mergeAll lt s.patience s.last s.before

end VennDiagram.Order
