import Mathlib.Data.List.Forall2
import VennDiagram.Placement.Candidate
import VennDiagram.Proofs.Number.Distance
import VennDiagram.Proofs.Order.Permutation
import VennDiagram.Proofs.Steps

/-!
# `VennDiagram.Proofs.Placement.Candidates`: where candidates for dots lie

Sorting and cutting lose the place of a candidate in the grid, but change no candidate. So every
candidate of an organization is a point of the grid that was accepted, with the score it was accepted
with (`regionScore?_of_mem_dotCandidates`). An accepted point lies on the right side of every circle
(`inRegion_of_regionScore?`): inside the circles of the organization by more than the inner margin, and
outside all others by at least the outer margin.

The program refuses a point when it is seen to lie on the wrong side. A distance or a bound that cannot
be compared is not seen to lie anywhere, so `InRegion` says first that the point is not seen on the wrong
side, and then that it is on the right side wherever the numbers can be compared.
-/

set_option autoImplicit false

namespace VennDiagram

section
variable {α : Type} [Scalar α] {rules : Rules α} {circles : List (Circle α)} {members : List String}
  {x y : α}

/-- The distance from a point to the centre of a circle. -/
def Circle.distance (c : Circle α) (x y : α) : α := Scalar.hypotenuse (x - c.x) (y - c.y)

/-- The point is not seen to lie on the wrong side of a circle. As far as the numbers can be compared, it
lies inside every circle of the organization by more than the inner margin, and outside every other
circle by at least the outer margin. -/
structure InRegion (rules : Rules α) (members : List String) (circles : List (Circle α)) (x y : α) :
    Prop where
  inside : ∀ c ∈ circles, c.name ∈ members → ¬ c.r - rules.orgInsideMargin ≤ c.distance x y
  outside : ∀ c ∈ circles, c.name ∉ members → ¬ c.distance x y < c.r + rules.orgOutsideMargin
  inside_lt : ∀ c ∈ circles, c.name ∈ members → c.distance x y ≤ c.distance x y →
    c.r - rules.orgInsideMargin ≤ c.r - rules.orgInsideMargin →
    c.distance x y < c.r - rules.orgInsideMargin
  outside_le : ∀ c ∈ circles, c.name ∉ members → c.distance x y ≤ c.distance x y →
    c.r + rules.orgOutsideMargin ≤ c.r + rules.orgOutsideMargin →
    c.r + rules.orgOutsideMargin ≤ c.distance x y

/-- The clearance of a point that is on the right side of a circle. -/
theorem clearance?_cases {c : Circle α} {clearance : α}
    (h : clearance? rules members x y c = some clearance) :
    c.name ∈ members ∧ ¬ c.r - rules.orgInsideMargin ≤ c.distance x y ∧
        clearance = c.r - c.distance x y ∨
      c.name ∉ members ∧ ¬ c.distance x y < c.r + rules.orgOutsideMargin ∧
        clearance = c.distance x y - c.r := by
  simp only [clearance?, List.contains_iff_mem] at h
  split at h
  · rename_i hmember
    obtain ⟨hinside, hclearance⟩ := Option.ite_none_left_eq_some.mp h
    exact Or.inl ⟨hmember, hinside, (Option.some.inj hclearance).symm⟩
  · rename_i hmember
    obtain ⟨houtside, hclearance⟩ := Option.ite_none_left_eq_some.mp h
    exact Or.inr ⟨hmember, houtside, (Option.some.inj hclearance).symm⟩

/-- An accepted point has a clearance to every circle, and the least of them is its score. -/
theorem regionScore?_eq_some_iff {score : α} :
    regionScore? rules members circles x y = some score ↔
      ∃ first rest, circles.map (clearance? rules members x y) = (first :: rest).map some ∧
        Scalar.least first rest = score := by
  rw [regionScore?]
  split
  · rename_i first rest hclearances
    rw [mapM_eq_some_iff] at hclearances
    rw [hclearances, Option.some.injEq]
    constructor
    · intro hscore
      exact ⟨first, rest, rfl, hscore⟩
    · rintro ⟨first', rest', heq, hscore⟩
      obtain ⟨rfl, rfl⟩ := List.cons.inj (map_some_inj.mp heq)
      exact hscore
  · rename_i hnone
    constructor
    · intro h
      exact absurd h (by simp)
    · rintro ⟨first, rest, hclearances, -⟩
      exact absurd (mapM_eq_some_iff.mpr hclearances) (hnone first rest)

/-- An accepted point lies on the right side of every circle. -/
theorem inRegion_of_regionScore? [OrderedScalar α] {score : α}
    (h : regionScore? rules members circles x y = some score) : InRegion rules members circles x y := by
  obtain ⟨first, rest, hclearances, -⟩ := regionScore?_eq_some_iff.mp h
  have hsome : ∀ c ∈ circles, ∃ clearance, clearance? rules members x y c = some clearance := by
    intro c hc
    have hmem : clearance? rules members x y c ∈ (first :: rest).map some :=
      hclearances ▸ List.mem_map_of_mem hc
    obtain ⟨clearance, -, heq⟩ := List.mem_map.mp hmem
    exact ⟨clearance, heq.symm⟩
  have hinside : ∀ c ∈ circles, c.name ∈ members →
      ¬ c.r - rules.orgInsideMargin ≤ c.distance x y := by
    intro c hc hmember
    obtain ⟨clearance, hclearance⟩ := hsome c hc
    rcases clearance?_cases hclearance with ⟨-, hinside, -⟩ | ⟨hother, -, -⟩
    · exact hinside
    · exact absurd hmember hother
  have houtside : ∀ c ∈ circles, c.name ∉ members →
      ¬ c.distance x y < c.r + rules.orgOutsideMargin := by
    intro c hc hother
    obtain ⟨clearance, hclearance⟩ := hsome c hc
    rcases clearance?_cases hclearance with ⟨hmember, -, -⟩ | ⟨-, houtside, -⟩
    · exact absurd hmember hother
    · exact houtside
  -- The checks are written as the failures they rule out. For comparable numbers the comparisons can be
  -- turned around.
  refine ⟨hinside, houtside, ?_, ?_⟩
  · intro c hc hmember hdistance hbound
    exact (OrderedScalar.lt_iff_not_le _ _ hdistance hbound).mpr (hinside c hc hmember)
  · intro c hc hother hdistance hbound
    have hle := houtside c hc hother
    rwa [OrderedScalar.lt_iff_not_le _ _ hdistance hbound, not_not] at hle

/-! ### Candidates -/

variable {found : List (DotCandidate α)} {dot : DotCandidate α}

/-- Ranking only moves candidates. -/
theorem ranked_perm (candidates : List (DotCandidate α)) : (ranked candidates).Perm candidates := by
  rw [ranked]
  split
  · exact List.mergeSort_perm _ _
  · exact (List.reverse_perm _).trans ((Order.sort_perm _ _).trans (List.reverse_perm _))

/-- Cutting keeps a first part. -/
theorem keep_sublist {β : Type} (count : Int) (xs : List β) : (keep count xs).Sublist xs := by
  rw [keep]
  split
  · exact List.take_sublist _ _
  · exact List.take_sublist _ _

/-- A candidate has the score of its place. -/
theorem regionScore?_of_mem_eligibleDots (hfound : eligibleDots rules circles members = some found)
    (hdot : dot ∈ found) : regionScore? rules members circles dot.x dot.y = some dot.score := by
  rw [eligibleDots] at hfound
  split at hfound
  · obtain rfl := Option.some.inj hfound
    simp at hdot
  · obtain ⟨points, -, rfl⟩ := Option.map_eq_some_iff.mp hfound
    obtain ⟨⟨x, y⟩, -, haccepted⟩ := List.mem_filterMap.mp hdot
    obtain ⟨score, hscore, rfl⟩ := Option.map_eq_some_iff.mp haccepted
    exact hscore

/-- A candidate of an organization is an accepted point with its score. -/
theorem regionScore?_of_mem_dotCandidates {o : Organization}
    (hfound : dotCandidates rules circles o = some found) (hdot : dot ∈ found) :
    regionScore? rules o.categories circles dot.x dot.y = some dot.score := by
  obtain ⟨eligible, heligible, rfl⟩ := Option.map_eq_some_iff.mp hfound
  have hmem : dot ∈ ranked eligible := (keep_sublist _ _).subset hdot
  exact regionScore?_of_mem_eligibleDots heligible ((ranked_perm eligible).mem_iff.mp hmem)

/-- As long as there are not more than are kept, every accepted point is a candidate. -/
theorem dotCandidates_perm {o : Organization} {eligible : List (DotCandidate α)}
    (heligible : eligibleDots rules circles o.categories = some eligible)
    (hlength : (eligible.length : Int) ≤ rules.maxOrgCandidates)
    (hfound : dotCandidates rules circles o = some found) : found.Perm eligible := by
  have hperm : (ranked eligible).Perm eligible := ranked_perm eligible
  rw [dotCandidates, heligible, Option.map_some, Option.some.injEq] at hfound
  subst hfound
  rw [keep, if_pos (by omega), List.take_of_length_le (by rw [hperm.length_eq]; omega)]
  exact hperm

/-- The lists of candidates that are found belong to the organizations one by one. -/
theorem allDotCandidates_eq_some_iff {organizations : List Organization}
    {dots : List (List (DotCandidate α))} :
    allDotCandidates rules circles organizations = some dots ↔
      List.Forall₂ (fun o found => dotCandidates rules circles o = some found) organizations dots := by
  rw [allDotCandidates, mapM_eq_some_iff, ← List.forall₂_eq_eq_eq, List.forall₂_map_left_iff,
    List.forall₂_map_right_iff]

end
end VennDiagram
