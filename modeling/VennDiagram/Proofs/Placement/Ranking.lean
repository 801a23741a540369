import VennDiagram.Proofs.Number.Doubles
import VennDiagram.Proofs.Placement.Sweep

/-!
# `VennDiagram.Proofs.Placement.Ranking`: ranking keeps the best candidates

Candidates are sorted by falling score, and only the first of them are kept. `Ranking` says what comes of
it: scores never rise, candidates of equal score stand in the order of the grid, and a candidate that was
cut is not better than any that was kept, nor as good and earlier in the grid. All this is said of the
candidates as the grid has them, so it does not matter how they were sorted.

The sort is stable: elements that are level keep their order (`filter_mergeSort`). It compares scores,
and these are on a line only as far as they are numbers. So what is said of sorting asks for an order of
the elements of the list, not of all values (`pairwise_mergeSort_of_mem`).

A list that is cut earlier is the first part of one that is cut later (`dotCandidates_ranks`).
-/

set_option autoImplicit false

namespace VennDiagram

/-! ### Stable sorting -/

section
variable {β : Type} {le : β → β → Bool} {xs : List β}

/-- The element is level with `x`. -/
def isLevel (le : β → β → Bool) (x y : β) : Bool := le x y && le y x

section
variable (htrans : ∀ x y z, le x y = true → le y z = true → le x z = true)
  (htotal : ∀ x y, (le x y || le y x) = true)
include htrans htotal

/-- Sorting leaves elements that are level in their order. -/
theorem filter_mergeSort {p : β → Bool} (hlevel : ∀ x y, p x = true → p y = true → le x y = true) :
    (xs.mergeSort le).filter p = xs.filter p := by
  have hinOrder : (xs.filter p).Pairwise fun x y => le x y = true := by
    refine List.pairwise_iff_forall_sublist.mpr fun {x y} hxy => ?_
    have hmem : ∀ z ∈ [x, y], p z = true := fun z hz => (List.mem_filter.mp (hxy.subset hz)).2
    exact hlevel x y (hmem x (by simp)) (hmem y (by simp))
  have hkept : (xs.filter p).Sublist (xs.mergeSort le) :=
    List.sublist_mergeSort htrans htotal hinOrder List.filter_sublist
  have hsublist : (xs.filter p).Sublist ((xs.mergeSort le).filter p) := by
    simpa only [List.filter_filter, Bool.and_self] using hkept.filter p
  -- There are no more of them after sorting than before.
  have hlength : ((xs.mergeSort le).filter p).length = (xs.filter p).length :=
    ((List.mergeSort_perm xs le).filter p).length_eq
  exact (hsublist.eq_of_length hlength.symm).symm

/-- A sorted list is in order, and two elements that are level stand as they stood before. -/
theorem pairwise_mergeSort_stable {R : β → β → Prop} (hxs : xs.Pairwise R) :
    (xs.mergeSort le).Pairwise fun x y => le x y = true ∧ (le y x = true → R x y) := by
  have hinOrder : (xs.mergeSort le).Pairwise fun x y => le x y = true :=
    List.pairwise_mergeSort htrans htotal xs
  refine List.pairwise_iff_forall_sublist.mpr fun {x y} hxy => ?_
  have hle : le x y = true := List.pairwise_iff_forall_sublist.mp hinOrder hxy
  refine ⟨hle, fun hle' => ?_⟩
  -- The elements level with `x` keep their order, and both are among them.
  have hlevel : ∀ z w, isLevel le x z = true → isLevel le x w = true → le z w = true := by
    intro z w hz hw
    rw [isLevel, Bool.and_eq_true] at hz hw
    exact htrans z x w hz.2 hw.1
  have hself : le x x = true := by
    simpa using htotal x x
  have hpair : [x, y].filter (isLevel le x) = [x, y] := by
    simp [isLevel, hself, hle, hle']
  have hsublist : [x, y].Sublist (xs.filter (isLevel le x)) := by
    have hfilter := hxy.filter (isLevel le x)
    rwa [hpair, filter_mergeSort htrans htotal hlevel] at hfilter
  exact List.pairwise_iff_forall_sublist.mp hxs (hsublist.trans List.filter_sublist)

end

/-- An order of the elements of the list is enough. -/
theorem pairwise_mergeSort_of_mem
    (htrans : ∀ x ∈ xs, ∀ y ∈ xs, ∀ z ∈ xs, le x y = true → le y z = true → le x z = true)
    (htotal : ∀ x ∈ xs, ∀ y ∈ xs, (le x y || le y x) = true)
    {R : β → β → Prop} (hxs : xs.Pairwise R) :
    (xs.mergeSort le).Pairwise fun x y => le x y = true ∧ (le y x = true → R x y) := by
  have hmap : (xs.attach.mergeSort fun x y => le x.1 y.1).map Subtype.val = xs.mergeSort le := by
    rw [List.map_mergeSort (f := Subtype.val) (s := le) fun _ _ _ _ => rfl, List.attach_map_subtype_val]
  have hattach : xs.attach.Pairwise fun x y => R x.1 y.1 := by
    rwa [← List.pairwise_map, List.attach_map_subtype_val]
  rw [← hmap, List.pairwise_map]
  exact pairwise_mergeSort_stable (fun x y z => htrans x.1 x.2 y.1 y.2 z.1 z.2)
    (fun x y => htotal x.1 x.2 y.1 y.2) hattach

end

/-! ### Rankings -/

section
variable {α : Type} [Scalar α]

/-- The candidates are the best ones, in their order: `count` of them, or all if there are less. -/
structure Ranking (count : ℕ) (eligible found : List (DotCandidate α)) : Prop where
  length_eq : found.length = min count eligible.length
  falls : found.Pairwise fun a b => b.score ≤ a.score
  level : found.Pairwise fun a b => a.score ≤ b.score → GridBefore a.point b.point
  /-- What is not among them was cut. -/
  cut : ∃ cut, (found ++ cut).Perm eligible ∧
    ∀ a ∈ found, ∀ b ∈ cut, b.score ≤ a.score ∧ (a.score ≤ b.score → GridBefore a.point b.point)

/-- The first candidates of a sorted list are a ranking. -/
theorem ranking_take {eligible sorted : List (DotCandidate α)} (hperm : sorted.Perm eligible)
    (hsorted : sorted.Pairwise fun a b =>
      b.score ≤ a.score ∧ (a.score ≤ b.score → GridBefore a.point b.point)) (count : ℕ) :
    Ranking count eligible (sorted.take count) := by
  obtain ⟨hfound, -, hcut⟩ := List.pairwise_append.mp ((List.take_append_drop count sorted).symm ▸ hsorted)
  exact
    { length_eq := by rw [List.length_take, hperm.length_eq]
      falls := hfound.imp And.left
      level := hfound.imp And.right
      cut := ⟨sorted.drop count, by rwa [List.take_append_drop], hcut⟩ }

variable [LinearScalar α] {rules : Rules α} {circles : List (Circle α)} {o : Organization}
  {eligible : List (DotCandidate α)}

/-- Candidates whose scores are numbers are sorted by them, and as the grid has them where these are
equal. -/
theorem pairwise_ranked (hscores : ∀ dot ∈ eligible, dot.score ≤ dot.score)
    (horder : eligible.Pairwise fun a b => GridBefore a.point b.point) :
    (ranked eligible).Pairwise fun a b =>
      b.score ≤ a.score ∧ (a.score ≤ b.score → GridBefore a.point b.point) := by
  have hcomparable : comparable eligible = true :=
    List.all_eq_true.mpr fun dot hdot => decide_eq_true (hscores dot hdot)
  -- One candidate may stand before another if its score is not less.
  have hle : ∀ a ∈ eligible, ∀ b ∈ eligible,
      (!decide (a.score < b.score)) = true ↔ b.score ≤ a.score := by
    intro a ha b hb
    rw [Bool.not_eq_true', decide_eq_false_iff_not,
      OrderedScalar.lt_iff_not_le _ _ (hscores a ha) (hscores b hb), not_not]
  have htrans : ∀ a ∈ eligible, ∀ b ∈ eligible, ∀ c ∈ eligible,
      (!decide (a.score < b.score)) = true → (!decide (b.score < c.score)) = true →
        (!decide (a.score < c.score)) = true := by
    intro a ha b hb c hc
    rw [hle a ha b hb, hle b hb c hc, hle a ha c hc]
    exact fun hab hbc => LinearScalar.le_trans hbc hab
  have htotal : ∀ a ∈ eligible, ∀ b ∈ eligible,
      (!decide (a.score < b.score) || !decide (b.score < a.score)) = true := by
    intro a ha b hb
    rw [Bool.or_eq_true, hle a ha b hb, hle b hb a ha]
    exact LinearScalar.le_total (hscores b hb) (hscores a ha)
  rw [ranked, if_pos hcomparable]
  refine (pairwise_mergeSort_of_mem htrans htotal horder).imp_of_mem fun {a b} ha hb h => ?_
  rw [List.mem_mergeSort] at ha hb
  rwa [hle a ha b hb, hle b hb a ha] at h

/-- Of the candidates that the grid has, in its order, the best ones are found. A greater number of
candidates adds to the end of the list. -/
theorem dotCandidates_ranks (heligible : eligibleDots rules circles o.categories = some eligible)
    (hscores : ∀ dot ∈ eligible, dot.score ≤ dot.score) (hcount : 0 ≤ rules.maxOrgCandidates) :
    eligible.Pairwise (fun a b => GridBefore a.point b.point) ∧
      ∃ found, dotCandidates rules circles o = some found ∧
        Ranking rules.maxOrgCandidates.toNat eligible found ∧
        ∀ count : ℤ, rules.maxOrgCandidates ≤ count →
          ∃ more, dotCandidates { rules with maxOrgCandidates := count } circles o = some more ∧
            found <+: more := by
  have horder := pairwise_eligibleDots heligible
  -- The rule on the number of candidates is not looked at before they are cut.
  have hfound : ∀ count : ℤ, 0 ≤ count →
      dotCandidates { rules with maxOrgCandidates := count } circles o
        = some ((ranked eligible).take count.toNat) := by
    intro count hcount
    have heligible' : eligibleDots { rules with maxOrgCandidates := count } circles o.categories
        = some eligible := heligible
    rw [dotCandidates, heligible', Option.map_some]
    exact congrArg some (if_pos hcount)
  refine ⟨horder, _, hfound _ hcount, ?_, fun count hmore => ⟨_, hfound count (hcount.trans hmore), ?_⟩⟩
  · exact ranking_take (ranked_perm eligible) (pairwise_ranked hscores horder) _
  · exact List.take_prefix_take_left (Int.toNat_le_toNat hmore)

end

/-- Two of the points in one of two circles that overlap. Grid points on both sides of the line between
the centres have equal scores. -/
theorem dotCandidates_ranks_two_points :
    let rules : Rules Float := { Rules.standard with maxOrgCandidates := 2 }
    let circles : List (Circle Float) := [⟨0, "A", "red", 0, 0, 60⟩, ⟨1, "B", "blue", 80, 0, 60⟩]
    let o : Organization := ⟨"o", ["A"], none, none⟩
    ∃ eligible, eligibleDots rules circles o.categories = some eligible ∧
      (∀ dot ∈ eligible, dot.score ≤ dot.score) ∧ 0 ≤ rules.maxOrgCandidates ∧
      eligible.Pairwise (fun a b => GridBefore a.point b.point) ∧
      ∃ found, dotCandidates rules circles o = some found ∧
        Ranking rules.maxOrgCandidates.toNat eligible found ∧
        ∀ count : ℤ, rules.maxOrgCandidates ≤ count →
          ∃ more, dotCandidates { rules with maxOrgCandidates := count } circles o = some more ∧
            found <+: more := by
  intro rules circles o
  -- Whether there are points and whether their scores are comparable is decided without writing the
  -- points out.
  have hcomparable : (eligibleDots rules circles o.categories).all comparable = true := by
    decide +kernel
  have hsome : (eligibleDots rules circles o.categories).isSome = true := by
    decide +kernel
  obtain ⟨eligible, heligible⟩ := Option.isSome_iff_exists.mp hsome
  rw [heligible] at hcomparable
  have hscores : ∀ dot ∈ eligible, dot.score ≤ dot.score := fun dot hdot =>
    of_decide_eq_true (List.all_eq_true.mp hcomparable dot hdot)
  have hcount : 0 ≤ rules.maxOrgCandidates := by decide
  exact ⟨eligible, heligible, hscores, hcount, dotCandidates_ranks heligible hscores hcount⟩

end VennDiagram
