import VennDiagram.Order.Search

/-!
# `VennDiagram.Order.Merge`: merging two runs

Two neighbouring runs are merged from the front or, on reversed runs, from the back: the next element is
taken from the run whose turn it is, until one run is used up. After one run has won several times in a
row, `gallop` finds out how often it goes on to win, and all of that is moved at once. How many wins that
takes is the patience, which adapts to what the merges meet.

On runs in order the result is the merge in order. The comparison may be any function; whatever it
answers, a merge only moves elements.
-/

set_option autoImplicit false

namespace VennDiagram.Order

variable {α : Type}

/-- The end at which a merge starts. -/
inductive End where
  | front
  | back
deriving DecidableEq, Repr

/-- Two runs in the course of a merge. All lists start at the end of the merge: `moved` holds what has
been moved, the last one first. At equal elements the turn is that of `held`. -/
structure Merging (α : Type) where
  moved : List α
  held : List α
  free : List α

namespace Merging

/-- The rest is known without a comparison: nothing is free, or at most one element is held, which
comes last. -/
def isOver (m : Merging α) : Bool :=
  m.free.isEmpty ||
    match m.held with
    | [] => true
    | [_] => true
    | _ => false

/-- Everything, in the order of the merge. -/
def finish (m : Merging α) : List α := m.moved.reverse ++ m.free ++ m.held

/-- Moves elements that are held. -/
def moveHeld (m : Merging α) (count : Nat) : Merging α :=
  { m with moved := (m.held.take count).reverse ++ m.moved, held := m.held.drop count }

/-- Moves elements that are free. -/
def moveFree (m : Merging α) (count : Nat) : Merging α :=
  { m with moved := (m.free.take count).reverse ++ m.moved, free := m.free.drop count }

end Merging

/-- How many elements a list that starts at the given end begins with that pass a test. -/
def leading (e : End) (test : α → Bool) (xs : List α) : Nat :=
  let passes (i : Nat) : Bool := xs[i]?.any test
  match e with
  | .front => gallop passes xs.length 0
  -- In memory these are the last elements, and the search starts from the very last one.
  | .back => xs.length - gallop (fun i => !passes (xs.length - 1 - i)) xs.length (xs.length - 1)

/-- The free element comes before the held one. -/
def freeFirst (e : End) (lt : α → α → Bool) (free held : α) : Bool :=
  match e with
  | .front => lt free held
  | .back => lt held free

/-- Moves the held elements that come before the first free one, and then that one; and how many of the
held ones there were. -/
def advanceHeld (e : End) (lt : α → α → Bool) (m : Merging α) : Merging α × Nat :=
  match m.free with
  | [] => (m, 0)
  | x :: _ =>
    let count := leading e (fun y => !freeFirst e lt x y) m.held
    let m := m.moveHeld count
    (if m.isOver then m else m.moveFree 1, count)

/-- Moves the free elements that come before the first held one, and then that one; and how many of the
free ones there were. -/
def advanceFree (e : End) (lt : α → α → Bool) (m : Merging α) : Merging α × Nat :=
  match m.held with
  | [] => (m, 0)
  | y :: _ =>
    let count := leading e (fun x => freeFirst e lt x y) m.free
    let m := m.moveFree count
    (if m.isOver then m else m.moveHeld 1, count)

/-- Both, in the order of the end; and the greater of the two numbers. -/
def advance (e : End) (lt : α → α → Bool) (m : Merging α) : Merging α × Nat :=
  let (first, second) := match e with
    | .front => (advanceHeld e lt, advanceFree e lt)
    | .back => (advanceFree e lt, advanceHeld e lt)
  let (m, a) := first m
  if m.isOver then (m, a)
  else
    let (m, b) := second m
    (m, max a b)

/-- How a merge goes on. -/
inductive Pace where
  /-- One element at a time; one of the runs may have won several times in a row. -/
  | walking (held free : Nat)
  | galloping

/-- The number of wins that are worth galloping. -/
def worthwhile : Nat := 7

/-- Merges until the rest is known. Every step moves an element, and the fuel bounds the steps. -/
def mergeOn (e : End) (lt : α → α → Bool) :
    (fuel patience : Nat) → Pace → Merging α → Merging α × Nat
  | 0, patience, _, m => (m, patience)
  | fuel + 1, patience, pace, m =>
    if m.isOver then (m, patience)
    else
      match pace, m.held, m.free with
      | .walking held free, y :: _, x :: _ =>
        let (m, held, free) :=
          if freeFirst e lt x y then (m.moveFree 1, 0, free + 1) else (m.moveHeld 1, held + 1, 0)
        -- Enough wins in a row are worth galloping.
        if patience ≤ max held free then mergeOn e lt fuel patience .galloping m
        else mergeOn e lt fuel patience (.walking held free) m
      | _, _, _ =>
        let (m, count) := advance e lt m
        if m.isOver then (m, patience)
        -- Galloping that pays is begun sooner the next time, and later if it does not.
        else if worthwhile ≤ count then mergeOn e lt fuel (max 1 (patience - 1)) .galloping m
        else mergeOn e lt fuel (patience + 1) (.walking 0 0) m

/-- Merges from an end: the first free element is known to come first. -/
def mergeFrom (e : End) (lt : α → α → Bool) (patience : Nat) (held free : List α) : List α × Nat :=
  let m := (Merging.mk [] held free).moveFree 1
  let (m, patience) := mergeOn e lt (held.length + free.length) patience (.walking 0 0) m
  (m.finish, patience)

/-- Merges two runs. What the first run begins with and the second one ends with may stay where it is;
of what is left, the shorter part is held. -/
def mergeRuns (lt : α → α → Bool) (patience : Nat) (a b : List α) : List α × Nat :=
  match b with
  | [] => (a, patience)
  | first :: _ =>
    -- What comes before the whole second run stays.
    let settled := gallop (fun i => a[i]?.any fun x => !lt first x) a.length 0
    let left := a.drop settled
    match left.getLast? with
    | none => (a ++ b, patience)
    | some last =>
      -- So does what comes after all that is left of the first run.
      let kept := gallop (fun i => b[i]?.any fun x => lt x last) b.length (b.length - 1)
      let right := b.take kept
      let (merged, patience) :=
        if right.isEmpty then (left, patience)
        else if left.length ≤ right.length then mergeFrom .front lt patience left right
        else
          let (back, patience) := mergeFrom .back lt patience right.reverse left.reverse
          (back.reverse, patience)
      (a.take settled ++ merged ++ b.drop kept, patience)

end VennDiagram.Order
