import VennDiagram.Document.Basic
import VennDiagram.Geometry.Circle
import VennDiagram.Order.Runs
import VennDiagram.Rules.Basic

/-!
# `VennDiagram.Placement.Candidate`: where dots and labels may go

The dot of an organization may go to the points of a grid that lie well inside each of its circles and
well outside every other circle. The grid starts at the top left of the box around the organization's
circles. The score of a point is its distance to the nearest edge of a circle; candidates are ranked by
score, points of equal score in grid order, and cut to the number the rules allow. A label may go to
evenly spaced points around its circle.

The grid is scanned by adding the step again and again. That ends only if the step moves the scan
forward, so a scan that does not end has no result.
-/

set_option autoImplicit false

namespace VennDiagram

/-- A point for the dot of an organization. A higher score is further from the edges. -/
structure DotCandidate (α : Type) where
  x : α
  y : α
  score : α
deriving DecidableEq

/-- An anchor for the label of a circle, and its direction from the centre in degrees. -/
structure LabelCandidate (α : Type) where
  x : α
  y : α
  angle : α
deriving DecidableEq

variable {α : Type} [Scalar α]

/-! ### Dots -/

/-- The values `x`, `x + step`, `x + step + step`, … up to `last`, or nothing if a step does not
increase the value and so `last` is never passed. The fuel bounds the number of values. -/
def scan (step last : α) : (fuel : Nat) → (x : α) → Option (List α)
  | 0, _ => none
  | fuel + 1, x =>
    if x ≤ last then
      let next := x + step
      -- A value that does not grow here never passes the last one.
      if next ≤ x then none else (scan step last fuel next).map (x :: ·)
    else some []

/-- The values of a scan from `first` to `last`. -/
def scanBetween (step first last : α) : Option (List α) :=
  scan step last (Scalar.scanBound first last step + 1) first

/-- The points of the grid over a box, column by column. Without a column nothing is scanned
vertically. -/
def gridPoints (step left right top bottom : α) : Option (List (α × α)) :=
  match scanBetween step left right with
  | none => none
  | some [] => some []
  | some xs => (scanBetween step top bottom).map fun ys => xs.flatMap fun x => ys.map (x, ·)

/-- The distance from a point to the edge of a circle, if the point lies on the right side of it: well
inside a circle of the organization, well outside any other. -/
def clearance? (rules : Rules α) (members : List String) (x y : α) (c : Circle α) : Option α :=
  let distance := Scalar.hypotenuse (x - c.x) (y - c.y)
  if members.contains c.name then
    -- The tests say what is wrong, so a distance that cannot be compared passes.
    if c.r - rules.orgInsideMargin ≤ distance then none else some (c.r - distance)
  else if distance < c.r + rules.orgOutsideMargin then none
  else some (distance - c.r)

/-- The distance from a point to the nearest edge of a circle, if the point is in the right region. -/
def regionScore? (rules : Rules α) (members : List String) (circles : List (Circle α)) (x y : α) :
    Option α :=
  match circles.mapM (clearance? rules members x y) with
  | some (first :: rest) => some (Scalar.least first rest)
  | _ => none

/-- The circles of an organization. -/
def ownCircles (members : List String) (circles : List (Circle α)) : List (Circle α) :=
  circles.filter fun c => members.contains c.name

/-- The candidates of an organization in grid order. -/
def eligibleDots (rules : Rules α) (circles : List (Circle α)) (members : List String) :
    Option (List (DotCandidate α)) :=
  match ownCircles members circles with
  | [] => some []
  | c :: rest =>
    let left := Scalar.least (c.x - c.r) (rest.map fun c => c.x - c.r)
    let right := Scalar.greatest (c.x + c.r) (rest.map fun c => c.x + c.r)
    let top := Scalar.least (c.y - c.r) (rest.map fun c => c.y - c.r)
    let bottom := Scalar.greatest (c.y + c.r) (rest.map fun c => c.y + c.r)
    (gridPoints rules.orgGridStep left right top bottom).map fun points =>
      points.filterMap fun (x, y) =>
        (regionScore? rules members circles x y).map fun score => { x, y, score }

/-- Every score can be compared with itself, and so with every other one. -/
def comparable (candidates : List (DotCandidate α)) : Bool :=
  candidates.all fun c => decide (c.score ≤ c.score)

/-- Candidates by falling score; of equal ones the earlier comes first. Scores that cannot be compared
have no such order, and the candidates stand as sorting from the last one on leaves them. -/
def ranked (candidates : List (DotCandidate α)) : List (DotCandidate α) :=
  -- With comparable scores every stable sort gives the same list.
  if comparable candidates then candidates.mergeSort fun a b => !decide (a.score < b.score)
  else (Order.sort (fun a b => decide (a.score < b.score)) candidates.reverse).reverse

/-- The first `count` elements, or all but the last `-count` ones if `count` is negative. -/
def keep {β : Type} (count : Int) (xs : List β) : List β :=
  if 0 ≤ count then xs.take count.toNat else xs.take (xs.length - count.natAbs)

/-- The candidates of an organization, ranked and cut. -/
def dotCandidates (rules : Rules α) (circles : List (Circle α)) (o : Organization) :
    Option (List (DotCandidate α)) :=
  (eligibleDots rules circles o.categories).map fun found => keep rules.maxOrgCandidates (ranked found)

/-- The candidates of all organizations, in order. -/
def allDotCandidates (rules : Rules α) (circles : List (Circle α)) (os : List Organization) :
    Option (List (List (DotCandidate α))) :=
  os.mapM (dotCandidates rules circles)

/-! ### Labels -/

/-- The label anchor in direction `i` of `total`. -/
def labelCandidate (rules : Rules α) (c : Circle α) (total i : Nat) : LabelCandidate α :=
  let reach := c.r + rules.labelDistance
  let theta : α := Scalar.ofNat i / Scalar.ofNat total * Scalar.pi * Scalar.ofNat 2
  { x := c.x + reach * Scalar.cosine theta
    y := c.y + reach * Scalar.sine theta
    angle := Scalar.ofNat (i * 360) / Scalar.ofNat total }

/-- The label anchors of a circle. -/
def labelCandidates (rules : Rules α) (c : Circle α) : List (LabelCandidate α) :=
  let total := rules.labelDirections.toNat
  (List.range total).map (labelCandidate rules c total)

end VennDiagram
