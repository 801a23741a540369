/-!
# `VennDiagram.Order.Search`: searching a row that turns once

A row of `count` positions is searched for the place where a test turns from true to false. `bisect`
halves the part of the row that is left. `gallop` starts from a hint and takes strides that double, so
the cost depends on how far the place is from the hint.

Both ask the test at positions that are fixed by the answers so far. On a row that turns more than once
they find one of the turns, and always the same one.
-/

set_option autoImplicit false

namespace VennDiagram.Order

/-- The place between `low` and `high` where the test turns. -/
def bisect (test : Nat → Bool) (low high : Nat) : Nat :=
  if low < high then
    let middle := low + (high - low) / 2
    if test middle then bisect test (middle + 1) high else bisect test low middle
  else high
termination_by high - low
decreasing_by all_goals omega

/-- Strides 1, 3, 7, … for as long as the test holds and they are below `bound`: the last stride that was
taken, and the first one that was not, which is at most `bound`. -/
def strides (test : Nat → Bool) (bound taken next : Nat) : Nat × Nat :=
  if next < bound then
    if test next then strides test bound next (2 * next + 1) else (taken, next)
  else (taken, bound)
termination_by bound - next
decreasing_by omega

/-- The place where the test turns, searched from a hint on. -/
def gallop (test : Nat → Bool) (count hint : Nat) : Nat :=
  if test hint then
    let (near, far) := strides (fun d => test (hint + d)) (count - hint) 0 1
    bisect test (hint + near + 1) (hint + far)
  else
    let (near, far) := strides (fun d => !test (hint - d)) (hint + 1) 0 1
    bisect test (hint + 1 - far) (hint - near)

end VennDiagram.Order
