import VennDiagram.Proofs.Placement.Exact

/-!
# `VennDiagram.Proofs.Placement.Region`: a scan finds all of a region

The box that is scanned is taken around the circles of the organization. It says nothing of the region,
which lies inside these circles and outside all others. But a point that keeps from the edge of one of
these circles lies in the box around it, if no leg is longer than the distance (`Keeps.mem_box`). That is
all that is asked of the distance, so it may be any function of the legs (`Scalar.withDistance`).
Therefore the box cuts nothing off: without rounding, the candidates are all points of the unbounded grid
that lie in the region (`eligibleDots_exact`).
-/

set_option autoImplicit false

namespace VennDiagram

/-! ### Accepted points -/

/-- The candidates are the points of the grid that are accepted, with their scores. -/
theorem exists_eligibleDots_of_gridPoints {α : Type} [Scalar α] {rules : Rules α}
    {circles rest : List (Circle α)} {own : Circle α} {members : List String} {points : List (α × α)}
    (hlist : ownCircles members circles = own :: rest)
    (hpoints : gridPoints rules.orgGridStep
      (Scalar.least (own.x - own.r) (rest.map fun c => c.x - c.r))
      (Scalar.greatest (own.x + own.r) (rest.map fun c => c.x + c.r))
      (Scalar.least (own.y - own.r) (rest.map fun c => c.y - c.r))
      (Scalar.greatest (own.y + own.r) (rest.map fun c => c.y + c.r)) = some points) :
    ∃ found, eligibleDots rules circles members = some found ∧
      ∀ x y score, ⟨x, y, score⟩ ∈ found ↔
        (x, y) ∈ points ∧ regionScore? rules members circles x y = some score := by
  simp only [eligibleDots, hlist, hpoints, Option.map_some]
  exact ⟨_, rfl, fun x y score => by simp [List.mem_filterMap]⟩

/-- How far a point is inside a circle of the organization, or outside any other circle. -/
noncomputable def edgeDistance (distance : ℝ → ℝ → ℝ) (members : List String) (x y : ℝ) (c : Circle ℝ) : ℝ :=
  if c.name ∈ members then c.r - distance (x - c.x) (y - c.y) else distance (x - c.x) (y - c.y) - c.r

/-- The point lies closer to the centre of a circle of the organization than its radius less the inner
margin, and from any other circle at least its radius and the outer margin away. -/
def Keeps (distance : ℝ → ℝ → ℝ) (rules : Rules ℝ) (members : List String) (x y : ℝ) (c : Circle ℝ) : Prop :=
  if c.name ∈ members then distance (x - c.x) (y - c.y) < c.r - rules.orgInsideMargin
  else c.r + rules.orgOutsideMargin ≤ distance (x - c.x) (y - c.y)

section
variable {distance : ℝ → ℝ → ℝ} {rules : Rules ℝ} {circles : List (Circle ℝ)} {members : List String}
  {x y : ℝ}

/-- A circle has a clearance exactly if the point keeps to its right side, and then it is the distance to
its edge. -/
theorem clearance?_eq_some_iff {c : Circle ℝ} {clearance : ℝ} :
    @clearance? ℝ (.withDistance distance) rules members x y c = some clearance ↔
      Keeps distance rules members x y c ∧ edgeDistance distance members x y c = clearance := by
  let _ := Scalar.withDistance distance
  simp only [clearance?, List.contains_iff_mem, Keeps, edgeDistance]
  split
  · rw [Option.ite_none_left_eq_some, not_le, Option.some.injEq]
    exact Iff.rfl
  · rw [Option.ite_none_left_eq_some, not_lt, Option.some.injEq]
    exact Iff.rfl

/-- All values are there exactly if each is, and then they are known. -/
theorem map_eq_map_some_iff {β γ : Type} {f : β → Option γ} {g : β → γ} {p : β → Prop}
    (hf : ∀ x y, f x = some y ↔ p x ∧ g x = y) {xs : List β} {ys : List γ} :
    xs.map f = ys.map some ↔ (∀ x ∈ xs, p x) ∧ xs.map g = ys := by
  induction xs generalizing ys with
  | nil => cases ys <;> simp
  | cons x xs ih =>
    cases ys with
    | nil => simp
    | cons y ys =>
      simp only [List.map_cons, List.cons.injEq, hf, ih, List.forall_mem_cons]
      exact and_and_and_comm

/-- The image of the members of a list are the members of its image. -/
theorem image_setOf_mem {β γ : Type} (f : β → γ) (xs : List β) :
    f '' {x | x ∈ xs} = {y | y ∈ xs.map f} := by
  ext y
  exact List.mem_map.symm

/-- The least of some numbers is the least of them as a set. -/
theorem isLeast_least (first : ℝ) (rest : List ℝ) :
    IsLeast {v | v ∈ first :: rest} (@Scalar.least ℝ (.withDistance distance) first rest) :=
  let _ := Scalar.withDistance distance
  least_mem_and_le fun v _ => le_refl (α := ℝ) v

/-- So is the greatest. -/
theorem isGreatest_greatest (first : ℝ) (rest : List ℝ) :
    IsGreatest {v | v ∈ first :: rest} (@Scalar.greatest ℝ (.withDistance distance) first rest) :=
  let _ := Scalar.withDistance distance
  greatest_mem_and_le fun v _ => le_refl (α := ℝ) v

/-- A point is accepted if it keeps from the edges of all circles, and its score is the least distance to
an edge. -/
theorem regionScore?_withDistance {score : ℝ} :
    @regionScore? ℝ (.withDistance distance) rules members circles x y = some score ↔
      (∀ c ∈ circles, Keeps distance rules members x y c) ∧
        IsLeast (edgeDistance distance members x y '' {c | c ∈ circles}) score := by
  let _ := Scalar.withDistance distance
  simp only [image_setOf_mem, regionScore?_eq_some_iff, map_eq_map_some_iff fun _ _ => clearance?_eq_some_iff]
  constructor
  · rintro ⟨first, rest, ⟨hkeeps, hmap⟩, rfl⟩
    rw [hmap]
    exact ⟨hkeeps, isLeast_least first rest⟩
  · rintro ⟨hkeeps, hleast⟩
    cases hmap : circles.map (edgeDistance distance members x y) with
    | nil =>
      rw [hmap] at hleast
      exact absurd hleast.1 List.not_mem_nil
    | cons first rest =>
      rw [hmap] at hleast
      exact ⟨first, rest, ⟨hkeeps, rfl⟩, (isLeast_least first rest).unique hleast⟩

/-- What keeps from the edge of a circle of the organization lies in the box around it, since no leg is
longer than the distance. -/
theorem Keeps.mem_box (hx : ∀ dx dy, |dx| ≤ distance dx dy) (hy : ∀ dx dy, |dy| ≤ distance dx dy)
    (hmargin : 0 ≤ rules.orgInsideMargin) {c : Circle ℝ} (hmember : c.name ∈ members)
    (h : Keeps distance rules members x y c) :
    (c.x - c.r ≤ x ∧ x ≤ c.x + c.r) ∧ c.y - c.r ≤ y ∧ y ≤ c.y + c.r := by
  rw [Keeps, if_pos hmember] at h
  have hxlegs := abs_le.mp (hx (x - c.x) (y - c.y))
  have hylegs := abs_le.mp (hy (x - c.x) (y - c.y))
  refine ⟨⟨?_, ?_⟩, ?_, ?_⟩ <;> linarith

/-- Whoever keeps to the right side of a circle is one of the margins away from its edge. -/
theorem Keeps.min_le {c : Circle ℝ} (h : Keeps distance rules members x y c) :
    min rules.orgInsideMargin rules.orgOutsideMargin ≤ edgeDistance distance members x y c := by
  rw [Keeps] at h
  rw [edgeDistance]
  split
  · rename_i hmember
    rw [if_pos hmember] at h
    exact min_le_of_left_le (by linarith)
  · rename_i hother
    rw [if_neg hother] at h
    exact min_le_of_right_le (by linarith)

/-- A point that is a whole number of steps away from the first one, and not before it, is reached. -/
theorem exists_nat_steps {step first x : ℝ} (hstep : 0 < step) (hfirst : first ≤ x) {i : ℤ}
    (hi : x = first + i * step) : ∃ i : ℕ, x = first + i * step := by
  have hpos : 0 ≤ (i : ℝ) := by
    by_contra hneg
    have := mul_neg_of_neg_of_pos (not_le.mp hneg) hstep
    linarith
  obtain ⟨n, rfl⟩ := Int.eq_ofNat_of_zero_le (Int.cast_nonneg_iff.mp hpos)
  exact ⟨n, by rwa [Int.cast_natCast] at hi⟩

/-- The leftmost edge, or any other extreme, of some circles. -/
theorem isLeast_map (f : Circle ℝ → ℝ) (own : Circle ℝ) (rest : List (Circle ℝ)) :
    IsLeast (f '' {c | c ∈ own :: rest})
      (@Scalar.least ℝ (.withDistance distance) (f own) (rest.map f)) := by
  rw [image_setOf_mem]
  exact isLeast_least _ _

/-- The greatest value at some circles is the greatest of the image. -/
theorem isGreatest_map (f : Circle ℝ → ℝ) (own : Circle ℝ) (rest : List (Circle ℝ)) :
    IsGreatest (f '' {c | c ∈ own :: rest})
      (@Scalar.greatest ℝ (.withDistance distance) (f own) (rest.map f)) := by
  rw [image_setOf_mem]
  exact isGreatest_greatest _ _

/-- The candidates are the points of the grid over a box that keep from all edges, with their scores. -/
theorem exists_eligibleDots (distance : ℝ → ℝ → ℝ) (hstep : 0 < rules.orgGridStep)
    (hown : ∃ c ∈ circles, c.name ∈ members) :
    ∃ found left right top bottom,
      @eligibleDots ℝ (.withDistance distance) rules circles members = some found ∧
      IsLeast ((fun c => c.x - c.r) '' {c | c ∈ circles ∧ c.name ∈ members}) left ∧
      IsGreatest ((fun c => c.x + c.r) '' {c | c ∈ circles ∧ c.name ∈ members}) right ∧
      IsLeast ((fun c => c.y - c.r) '' {c | c ∈ circles ∧ c.name ∈ members}) top ∧
      IsGreatest ((fun c => c.y + c.r) '' {c | c ∈ circles ∧ c.name ∈ members}) bottom ∧
      ∀ x y score, ⟨x, y, score⟩ ∈ found ↔
        ((∃ i : ℕ, x = left + i * rules.orgGridStep ∧ x ≤ right) ∧
          ∃ j : ℕ, y = top + j * rules.orgGridStep ∧ y ≤ bottom) ∧
        (∀ c ∈ circles, Keeps distance rules members x y c) ∧
        IsLeast (edgeDistance distance members x y '' {c | c ∈ circles}) score := by
  let _ := Scalar.withDistance distance
  have hmem : {c | c ∈ circles ∧ c.name ∈ members} = {c | c ∈ ownCircles members circles} := by
    ext c
    simp [ownCircles]
  have hne : ownCircles members circles ≠ [] := by
    obtain ⟨c, hc⟩ := hown
    exact List.ne_nil_of_mem (show c ∈ {c | c ∈ ownCircles members circles} from hmem ▸ hc)
  obtain ⟨own, rest, hlist⟩ := List.exists_cons_of_ne_nil hne
  rw [hmem, hlist]
  -- The grid is that of the box around the own circles. A point of it is eligible with its score if it
  -- is in the region, and these are all.
  obtain ⟨points, hpoints, hgrid⟩ := exists_gridPoints distance hstep
    (Scalar.least (own.x - own.r) (rest.map fun c => c.x - c.r))
    (Scalar.greatest (own.x + own.r) (rest.map fun c => c.x + c.r))
    (Scalar.least (own.y - own.r) (rest.map fun c => c.y - c.r))
    (Scalar.greatest (own.y + own.r) (rest.map fun c => c.y + c.r))
  obtain ⟨found, heligible, haccepted⟩ := exists_eligibleDots_of_gridPoints hlist hpoints
  exact ⟨found, _, _, _, _, heligible, isLeast_map _ own rest, isGreatest_map _ own rest,
    isLeast_map _ own rest, isGreatest_map _ own rest,
    fun x y score => by rw [haccepted, hgrid, regionScore?_withDistance]⟩

/-- The candidates of an organization that has a circle are all points of the grid that lie in its
region, wherever the grid goes. Each of them is there once, column by column. Its score is the least
distance to an edge, and that is not less than the smaller margin. -/
theorem eligibleDots_exact {o : Organization} (hstep : 0 < rules.orgGridStep)
    (hmargin : 0 ≤ rules.orgInsideMargin) (hx : ∀ dx dy, |dx| ≤ distance dx dy)
    (hy : ∀ dx dy, |dy| ≤ distance dx dy) (hown : ∃ c ∈ circles, c.name ∈ o.categories) :
    ∃ found left top,
      @eligibleDots ℝ (.withDistance distance) rules circles o.categories = some found ∧
      IsLeast ((fun c => c.x - c.r) '' {c | c ∈ circles ∧ c.name ∈ o.categories}) left ∧
      IsLeast ((fun c => c.y - c.r) '' {c | c ∈ circles ∧ c.name ∈ o.categories}) top ∧
      found.Pairwise (fun a b => a.x < b.x ∨ a.x = b.x ∧ a.y < b.y) ∧
      (∀ x y score, ⟨x, y, score⟩ ∈ found ↔
        (∃ i j : ℤ, x = left + i * rules.orgGridStep ∧ y = top + j * rules.orgGridStep) ∧
        (∀ c ∈ circles, Keeps distance rules o.categories x y c) ∧
        IsLeast (edgeDistance distance o.categories x y '' {c | c ∈ circles}) score) ∧
      ∀ dot ∈ found, min rules.orgInsideMargin rules.orgOutsideMargin ≤ dot.score := by
  obtain ⟨found, left, right, top, bottom, heligible, hleft, hright, htop, hbottom, hmem⟩ :=
    exists_eligibleDots distance hstep hown
  refine ⟨found, left, top, heligible, hleft, htop, ?_, fun x y score => ?_, fun dot hdot => ?_⟩
  · exact @pairwise_eligibleDots ℝ (.withDistance distance) _ _ _ _ _ heligible
  · rw [hmem]
    refine and_congr_left fun ⟨hkeeps, _⟩ => ?_
    constructor
    · rintro ⟨⟨i, hi, -⟩, j, hj, -⟩
      exact ⟨i, j, by rwa [Int.cast_natCast], by rwa [Int.cast_natCast]⟩
    · rintro ⟨i, j, hi, hj⟩
      -- The point lies in the box around one of the circles, and that box is part of the whole box.
      obtain ⟨c, hc, hmember⟩ := hown
      obtain ⟨hxbox, hybox⟩ := (hkeeps c hc).mem_box hx hy hmargin hmember
      have hleft' : left ≤ x := (hleft.2 ⟨c, ⟨hc, hmember⟩, rfl⟩).trans hxbox.1
      have hright' : x ≤ right := hxbox.2.trans (hright.2 ⟨c, ⟨hc, hmember⟩, rfl⟩)
      have htop' : top ≤ y := (htop.2 ⟨c, ⟨hc, hmember⟩, rfl⟩).trans hybox.1
      have hbottom' : y ≤ bottom := hybox.2.trans (hbottom.2 ⟨c, ⟨hc, hmember⟩, rfl⟩)
      obtain ⟨n, hn⟩ := exists_nat_steps hstep hleft' hi
      obtain ⟨m, hm⟩ := exists_nat_steps hstep htop' hj
      exact ⟨⟨n, hn, hright'⟩, m, hm, hbottom'⟩
  · obtain ⟨-, hkeeps, ⟨c, hc, hscore⟩, -⟩ := (hmem dot.x dot.y dot.score).mp hdot
    rw [← hscore]
    exact (hkeeps c hc).min_le

end

/-- Two circles that overlap, with the distance of the plane. -/
theorem eligibleDots_exact_two_circles :
    let distance : ℝ → ℝ → ℝ := fun dx dy => √(dx ^ 2 + dy ^ 2)
    let rules : Rules ℝ :=
      ⟨1000, 800, 60, 15, 10, 20, 14, 1.5, 8, 20, 15, 25, 100, 24, 65, 80, 80, 150, 30⟩
    let circles : List (Circle ℝ) := [⟨0, "A", "red", 0, 0, 60⟩, ⟨1, "B", "blue", 80, 0, 60⟩]
    let o : Organization := ⟨"o", ["A"], none, none⟩
    0 < rules.orgGridStep ∧ 0 ≤ rules.orgInsideMargin ∧ (∀ dx dy, |dx| ≤ distance dx dy) ∧
      (∀ dx dy, |dy| ≤ distance dx dy) ∧ (∃ c ∈ circles, c.name ∈ o.categories) ∧
      ∃ found left top,
        @eligibleDots ℝ (.withDistance distance) rules circles o.categories = some found ∧
        IsLeast ((fun c => c.x - c.r) '' {c | c ∈ circles ∧ c.name ∈ o.categories}) left ∧
        IsLeast ((fun c => c.y - c.r) '' {c | c ∈ circles ∧ c.name ∈ o.categories}) top ∧
        found.Pairwise (fun a b => a.x < b.x ∨ a.x = b.x ∧ a.y < b.y) ∧
        (∀ x y score, ⟨x, y, score⟩ ∈ found ↔
          (∃ i j : ℤ, x = left + i * rules.orgGridStep ∧ y = top + j * rules.orgGridStep) ∧
          (∀ c ∈ circles, Keeps distance rules o.categories x y c) ∧
          IsLeast (edgeDistance distance o.categories x y '' {c | c ∈ circles}) score) ∧
        ∀ dot ∈ found, min rules.orgInsideMargin rules.orgOutsideMargin ≤ dot.score := by
  intro distance rules circles o
  have hstep : 0 < rules.orgGridStep := by norm_num [rules]
  have hmargin : 0 ≤ rules.orgInsideMargin := by norm_num [rules]
  -- The distance is a root of which either square is a summand.
  have hx : ∀ dx dy, |dx| ≤ distance dx dy := fun dx dy =>
    Real.abs_le_sqrt (le_add_of_nonneg_right (sq_nonneg dy))
  have hy : ∀ dx dy, |dy| ≤ distance dx dy := fun dx dy =>
    Real.abs_le_sqrt (le_add_of_nonneg_left (sq_nonneg dx))
  have hown : ∃ c ∈ circles, c.name ∈ o.categories := ⟨_, List.mem_cons_self, by decide⟩
  exact ⟨hstep, hmargin, hx, hy, hown, eligibleDots_exact hstep hmargin hx hy hown⟩

end VennDiagram
