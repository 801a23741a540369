import VennDiagram.Placement.Run
import VennDiagram.Proofs.Steps

/-!
# `VennDiagram.Proofs.Placement.Checked`: circles and candidates with every step checked

The stages of a run read each other's lists by index, divide by counts, take the least of some numbers,
add clauses that may be refused, and look variables up in a model. The stages walk through such lists side
by side, and so they cannot tell whether an index would be in range.

`Checked` spells the stages out in steps, in the order in which they are taken. A stage ends with a
`Fault` at the first step that cannot be taken. Every stage that is spelled out is shown to be the stage
itself, given what the stages before it guarantee. For circles and candidates:

* A number is divided by a count of things only where there is one of them (`ringCircle_eq`,
  `labelCandidates_eq`).
* The least of some numbers is taken only where there is a circle to take it over (`regionScore_eq`,
  `eligibleDots_eq`).

Encoding follows in `VennDiagram.Proofs.Placement.Building`, and decoding and the run as a whole in
`VennDiagram.Proofs.Placement.Faultless`.
-/

set_option autoImplicit false

namespace VennDiagram

namespace Checked

/-- Why a step cannot be taken. -/
inductive Fault where
  /-- The scan of a grid does not end. -/
  | endlessScan
  /-- A number is divided by a count of zero. -/
  | zeroDivision
  /-- The least or the greatest of no numbers is asked for. -/
  | noNumbers
  /-- A list has no element at an index. -/
  | noElement (index : Nat)
  /-- A clause is refused. -/
  | clause (e : ClauseError)
  /-- A result cannot tell the value of a variable. -/
  | noValue (e : LookupError)
  /-- A result without a model is decoded. -/
  | unsatisfiable

/-- The value that is there, or a fault. -/
def orFault {β : Type} (fault : Fault) : Option β → Except Fault β
  | some x => .ok x
  | none => .error fault

/-- The element of a list at an index. -/
def elementAt {β : Type} (xs : List β) (i : Nat) : Except Fault β := orFault (.noElement i) xs[i]?

/-- An element within the list is there. -/
theorem elementAt_getElem {β : Type} {xs : List β} {i : Nat} (hi : i < xs.length) :
    elementAt xs i = .ok xs[i] := by
  rw [elementAt, List.getElem?_eq_getElem hi, orFault]

section
variable {α : Type} [Scalar α]

/-- A number divided by a count. -/
def divide (x : α) (count : Nat) : Except Fault α :=
  if count = 0 then .error .zeroDivision else .ok (x / Scalar.ofNat count)

/-- A number may be divided by a count that is not zero. -/
theorem divide_eq (x : α) {count : Nat} (hcount : count ≠ 0) :
    divide x count = .ok (x / Scalar.ofNat count) := by
  rw [divide, if_neg hcount]

/-- The least of some numbers. -/
def least : List α → Except Fault α
  | [] => .error .noNumbers
  | x :: rest => .ok (Scalar.least x rest)

/-- The greatest of some numbers. -/
def greatest : List α → Except Fault α
  | [] => .error .noNumbers
  | x :: rest => .ok (Scalar.greatest x rest)

/-! ### Circles -/

/-- The circle of a category on the ring. -/
def ringCircle (rules : Rules α) (center : α × α) (total greatest : Nat) (s : Relation) :
    Except Fault (Circle α) := do
  let share : α ←
    if 0 < greatest then divide (Scalar.ofNat s.orgCount) greatest else pure (Scalar.ofNat 0)
  let turn : α ← divide (Scalar.ofNat s.index) total
  let angle := turn * Scalar.pi * Scalar.ofNat 2
  return {
    index := s.index
    name := s.name
    color := s.color
    x := center.1 + Scalar.cosine angle * rules.ringDistance
    y := center.2 + Scalar.sine angle * rules.ringDistance
    r := rules.baseRadius + share * rules.radiusRange }

/-- The circles of all categories. -/
def circles (d : Document α) (rules : Rules α) (center : α × α) : Except Fault (List (Circle α)) :=
  match d.givenCircles? with
  | some circles => .ok circles
  | none =>
    let relations := d.relations
    let greatest := (relations.map Relation.orgCount).foldl max 0
    relations.mapM (ringCircle rules center relations.length greatest)

/-- The circle of a category divides by how many there are, and by the greatest count only if that is not
zero. -/
theorem ringCircle_eq (rules : Rules α) (center : α × α) {total : Nat} (greatest : Nat) (s : Relation)
    (htotal : total ≠ 0) :
    ringCircle rules center total greatest s
      = .ok (Document.ringCircle rules center total greatest s) := by
  rw [ringCircle, Document.ringCircle, divide_eq _ htotal]
  by_cases hgreatest : 0 < greatest
  · rw [if_pos hgreatest, if_pos hgreatest, divide_eq _ (by omega)]
    rfl
  · rw [if_neg hgreatest, if_neg hgreatest]
    rfl

/-- There is a category wherever its index is divided by the number of categories. -/
theorem circles_eq (d : Document α) (rules : Rules α) (center : α × α) :
    circles d rules center = .ok (d.circles rules center) := by
  rw [circles, Document.circles]
  cases d.givenCircles? with
  | some circles => rfl
  | none =>
    refine mapM_eq_ok fun s hs => ringCircle_eq rules center _ s ?_
    exact mt List.length_eq_zero_iff.mp (List.ne_nil_of_mem hs)

/-! ### Candidates -/

/-- The distance from a point to the nearest edge of a circle, if the point is in the right region. -/
def regionScore (rules : Rules α) (members : List String) (circles : List (Circle α)) (x y : α) :
    Except Fault (Option α) :=
  match circles.mapM (clearance? rules members x y) with
  | none => return none
  | some distances => return some (← least distances)

/-- The candidates of an organization in grid order. -/
def eligibleDots (rules : Rules α) (circles : List (Circle α)) (members : List String) :
    Except Fault (List (DotCandidate α)) := do
  let own := ownCircles members circles
  if own.isEmpty then return []
  let left ← least (own.map fun c => c.x - c.r)
  let right ← greatest (own.map fun c => c.x + c.r)
  let top ← least (own.map fun c => c.y - c.r)
  let bottom ← greatest (own.map fun c => c.y + c.r)
  let points ← orFault .endlessScan (gridPoints rules.orgGridStep left right top bottom)
  points.filterMapM fun (x, y) => do
    let score? ← regionScore rules members circles x y
    return score?.map fun score => { x, y, score }

/-- The candidates of an organization, ranked and cut. -/
def dotCandidates (rules : Rules α) (circles : List (Circle α)) (o : Organization) :
    Except Fault (List (DotCandidate α)) := do
  let found ← eligibleDots rules circles o.categories
  return keep rules.maxOrgCandidates (ranked found)

/-- The label anchor in direction `i` of `total`. -/
def labelCandidate (rules : Rules α) (c : Circle α) (total i : Nat) :
    Except Fault (LabelCandidate α) := do
  let reach := c.r + rules.labelDistance
  let turn : α ← divide (Scalar.ofNat i) total
  let theta := turn * Scalar.pi * Scalar.ofNat 2
  let angle ← divide (Scalar.ofNat (i * 360)) total
  return {
    x := c.x + reach * Scalar.cosine theta
    y := c.y + reach * Scalar.sine theta
    angle }

/-- The label anchors of a circle. -/
def labelCandidates (rules : Rules α) (c : Circle α) : Except Fault (List (LabelCandidate α)) :=
  let total := rules.labelDirections.toNat
  (List.range total).mapM (labelCandidate rules c total)

section
variable (rules : Rules α) {circles : List (Circle α)}

/-- With a circle there is a nearest edge. -/
theorem regionScore_eq (members : List String) (hcircles : circles ≠ []) (x y : α) :
    regionScore rules members circles x y = .ok (regionScore? rules members circles x y) := by
  rw [regionScore, regionScore?]
  cases hdistances : circles.mapM (clearance? rules members x y) with
  | none => rfl
  | some distances =>
    cases distances with
    | cons first rest => rfl
    | nil =>
      have hnil := mapM_eq_some_iff.mp hdistances
      exact absurd (List.map_eq_nil_iff.mp hnil) hcircles

/-- The box is that around some circles, and its points are held against some circles. -/
theorem eligibleDots_eq (members : List String) :
    eligibleDots rules circles members
      = orFault .endlessScan (VennDiagram.eligibleDots rules circles members) := by
  rw [eligibleDots, VennDiagram.eligibleDots]
  cases hown : ownCircles members circles with
  | nil => rfl
  | cons c rest =>
    have hcircles : circles ≠ [] := by
      rintro rfl
      simp [ownCircles] at hown
    simp only [List.isEmpty_cons, Bool.false_eq_true, if_false, List.map_cons, least, greatest, bind_ok]
    cases gridPoints rules.orgGridStep _ _ _ _ with
    | none => rfl
    | some points =>
      refine filterMapM_eq_ok fun p _ => ?_
      rw [regionScore_eq rules members hcircles]
      rfl

/-- The candidates of an organization are found, unless a scan does not end. -/
theorem dotCandidates_eq (o : Organization) :
    dotCandidates rules circles o
      = orFault .endlessScan (VennDiagram.dotCandidates rules circles o) := by
  rw [dotCandidates, eligibleDots_eq, VennDiagram.dotCandidates]
  cases VennDiagram.eligibleDots rules circles o.categories <;> rfl

/-- There is a direction wherever its number is divided by the number of directions. -/
theorem labelCandidates_eq (c : Circle α) :
    labelCandidates rules c = .ok (VennDiagram.labelCandidates rules c) := by
  refine mapM_eq_ok fun i hi => ?_
  have htotal : rules.labelDirections.toNat ≠ 0 := Nat.ne_zero_of_lt (List.mem_range.mp hi)
  rw [labelCandidate, divide_eq _ htotal, divide_eq _ htotal]
  rfl

end

end

end Checked
end VennDiagram
