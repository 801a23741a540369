import VennDiagram.Proofs.Number.Doubles
import VennDiagram.Proofs.Placement.Agreement
import VennDiagram.Proofs.Placement.Outcome

/-!
# `VennDiagram.Proofs.Placement.Categories`: the order of the categories

If every category comes with a circle of finite numbers, putting the categories in another order gives
the same circles in another order, with other indices. No dot is moved by that
(`optimize_permutes_categories`).

The candidates for the dots agree one by one, so the same numbers choose dots that do not overlap
(`feasibleFor_iff`), and the least feasible choice of dots is the same (`leastFor_iff`). The labels are
put in another order, and other ones may be chosen. But whether labels can be chosen at all does not
depend on their order, and which dots are chosen does not depend on the labels.
-/

set_option autoImplicit false

namespace VennDiagram

open Encoding (Apart)

/-! ### Choices among candidates that agree -/

section
variable {β γ : Type} {R : β → γ → Prop} {overlap : β → β → Bool} {overlap' : γ → γ → Bool}
  {candidates : List (List β)} {candidates' : List (List γ)} {choice : List (Option Nat)}

/-- Related lists have related elements at each index, or none in either. -/
theorem rel_getElem? {xs : List β} {ys : List γ} (h : List.Forall₂ R xs ys) (k : Nat) :
    Option.Rel R xs[k]? ys[k]? := by
  induction h generalizing k with
  | nil => exact Option.Rel.none
  | cons hxy _ ih =>
    cases k with
    | zero => exact Option.Rel.some hxy
    | succ k => exact ih k

/-- The same numbers pick related candidates. -/
theorem forall₂_picks (h : List.Forall₂ (List.Forall₂ R) candidates candidates') :
    List.Forall₂ (Option.Rel R) (picks candidates choice) (picks candidates' choice) := by
  induction h generalizing choice with
  | nil => exact List.Forall₂.nil
  | cons hxs _ ih =>
    cases choice with
    | nil => exact List.Forall₂.nil
    | cons k ks =>
      refine List.Forall₂.cons ?_ ih
      cases k with
      | none => exact Option.Rel.none
      | some k => exact rel_getElem? hxs k

/-- Related picks overlap or not together. -/
theorem apart_iff {picked : List (Option β)} {picked' : List (Option γ)}
    (hoverlap : ∀ x x', R x x' → ∀ y y', R y y' → overlap x y = overlap' x' y')
    (h : List.Forall₂ (Option.Rel R) picked picked') :
    Apart overlap (picked.map Option.toList) ↔ Apart overlap' (picked'.map Option.toList) := by
  obtain ⟨pairs, hpairs, rfl, rfl⟩ := exists_pairs_of_forall₂ h
  rw [Apart, Apart, List.pairwise_map, List.pairwise_map, List.pairwise_map, List.pairwise_map]
  refine List.Pairwise.iff_of_mem fun {p q} hp hq => ?_
  obtain ⟨first, first'⟩ := p
  obtain ⟨second, second'⟩ := q
  have hfirst : Option.Rel R first first' := hpairs _ hp
  have hsecond : Option.Rel R second second' := hpairs _ hq
  cases hfirst with
  | none => simp
  | some hx =>
    cases hsecond with
    | none => simp
    | some hy => simp [hoverlap _ _ hx _ _ hy]

/-- A choice is feasible for candidates exactly if it is for candidates that overlap where they do. -/
theorem feasibleFor_iff (hoverlap : ∀ x x', R x x' → ∀ y y', R y y' → overlap x y = overlap' x' y')
    (h : List.Forall₂ (List.Forall₂ R) candidates candidates') :
    FeasibleFor overlap candidates choice ↔ FeasibleFor overlap' candidates' choice := by
  have hlengths : candidates.map List.length = candidates'.map List.length := by
    rw [← List.forall₂_eq_eq_eq, List.forall₂_map_left_iff, List.forall₂_map_right_iff]
    exact h.imp fun _ _ hxs => hxs.length_eq
  have hpicks : List.Forall₂ (Option.Rel R) (picks candidates choice) (picks candidates' choice) :=
    forall₂_picks h
  have hapart := apart_iff hoverlap hpicks
  constructor
  · rintro ⟨hfits, hclear⟩
    exact ⟨hlengths ▸ hfits, hapart.mp hclear⟩
  · rintro ⟨hfits, hclear⟩
    exact ⟨hlengths ▸ hfits, hapart.mpr hclear⟩

/-- The same choice is the least one. -/
theorem leastFor_iff (hoverlap : ∀ x x', R x x' → ∀ y y', R y y' → overlap x y = overlap' x' y')
    (h : List.Forall₂ (List.Forall₂ R) candidates candidates') :
    LeastFor overlap candidates choice ↔ LeastFor overlap' candidates' choice := by
  constructor
  · rintro ⟨hfeasible, hleast⟩
    exact ⟨(feasibleFor_iff hoverlap h).mp hfeasible, fun other hother =>
      hleast other ((feasibleFor_iff hoverlap h).mpr hother)⟩
  · rintro ⟨hfeasible, hleast⟩
    exact ⟨(feasibleFor_iff hoverlap h).mpr hfeasible, fun other hother =>
      hleast other ((feasibleFor_iff hoverlap h).mp hother)⟩

end

/-! ### Circles in another order -/

section
variable {α : Type}

/-- The circle without its place among the others. -/
def Circle.unindexed (c : Circle α) : Circle α := { c with index := 0 }

/-- The same document with its categories in another order. -/
structure Document.PermutesCategories (d d' : Document α) : Prop where
  categories_perm : d'.categories.Perm d.categories
  organizations_eq : d'.organizations = d.organizations

variable [Scalar α] {rules : Rules α} {members : List String} {circles : List (Circle α)}

/-- A score does not show the numbers of the circles. -/
theorem regionScore?_unindexed :
    regionScore? rules members (circles.map Circle.unindexed) = regionScore? rules members circles := by
  funext x y
  rw [regionScore?, regionScore?, List.mapM_map]
  rfl

/-- The place of a circle among the others does not matter to dots. -/
theorem dotCandidates_unindexed (o : Organization) :
    dotCandidates rules (circles.map Circle.unindexed) o = dotCandidates rules circles o := by
  have hown : ownCircles o.categories (circles.map Circle.unindexed)
      = (ownCircles o.categories circles).map Circle.unindexed := List.filter_map
  rw [dotCandidates, dotCandidates, eligibleDots, eligibleDots, hown, regionScore?_unindexed]
  cases ownCircles o.categories circles with
  | nil => rfl
  | cons own rest =>
    simp only [List.map_cons, List.map_map]
    rfl

/-- The candidates for the label of a circle, with its text. -/
def textCandidates (rules : Rules α) (c : Circle α) : List (String × LabelCandidate α) :=
  (labelCandidates rules c).map (c.name, ·)

/-- The candidates for labels have the texts of their circles. -/
theorem named_labelCandidates (circles : List (Circle α)) :
    Encoding.named circles (circles.map (labelCandidates rules)) = circles.map (textCandidates rules) := by
  rw [named_eq_zipWith (List.length_map _), List.zipWith_map_right, List.zipWith_self]
  rfl

/-- Nor to labels. -/
theorem map_textCandidates_unindexed :
    (circles.map Circle.unindexed).map (textCandidates rules) = circles.map (textCandidates rules) := by
  rw [List.map_map]
  rfl

/-- Circles that come with the categories, but for their places, are those of the categories. -/
theorem Document.map_some_unindexed {d : Document α}
    (hgeometry : ∀ c ∈ d.categories, c.hasGeometry = true) (rules : Rules α) (width height : Option α) :
    ((d.fixedCircles rules width height).map Circle.unindexed).map some
      = d.categories.map fun c => c.circle? 0 := by
  have hplace : ∀ (c : Category α) (i : Nat), (c.circle? i).map Circle.unindexed = c.circle? 0 := by
    intro c i
    rw [Category.circle?, Category.circle?, Option.map_map]
    rfl
  calc ((d.fixedCircles rules width height).map Circle.unindexed).map some
      = ((d.fixedCircles rules width height).map some).map (Option.map Circle.unindexed) := by
        rw [List.map_map, List.map_map]
        rfl
    _ = (d.categories.zipIdx.map Prod.fst).map fun c => c.circle? 0 := by
        rw [map_some_fixedCircles hgeometry, List.map_map, List.map_map]
        exact List.map_congr_left fun p _ => hplace p.1 p.2
    _ = d.categories.map fun c => c.circle? 0 := by rw [List.zipIdx_map_fst]

/-- The circles of the categories in another order. -/
theorem Document.PermutesCategories.unindexed_perm {d d' : Document α} (h : d.PermutesCategories d')
    (hgeometry : ∀ c ∈ d.categories, c.hasGeometry = true) (rules : Rules α) (width height : Option α) :
    ((d'.fixedCircles rules width height).map Circle.unindexed).Perm
      ((d.fixedCircles rules width height).map Circle.unindexed) := by
  have hgeometry' : ∀ c ∈ d'.categories, c.hasGeometry = true :=
    fun c hc => hgeometry c (h.categories_perm.mem_iff.mp hc)
  rw [← List.map_perm_map_iff (Option.some_injective _), map_some_unindexed hgeometry,
    map_some_unindexed hgeometry']
  exact h.categories_perm.map _

end

/-! ### Dots -/

section
variable {α : Type} [Scalar α] [LinearScalar α] {rules : Rules α} {circles circles' : List (Circle α)}
  {organizations : List Organization} {dots dots' : List (List (DotCandidate α))}

/-- Comparing sees no difference between candidates that agree, so neither do distances. -/
theorem dotsOverlap_eq {a a' b b' : DotCandidate α} (ha : a.Agrees a') (hb : b.Agrees b') :
    Encoding.dotsOverlap rules a b = Encoding.dotsOverlap rules a' b' := by
  rw [Encoding.dotsOverlap, Encoding.dotsOverlap, tooClose, tooClose, LinearScalar.hypotenuse_eq
    (LinearScalar.sub_alike ha.x_equals.alike hb.x_equals.alike)
    (LinearScalar.sub_alike ha.y_equals.alike hb.y_equals.alike)]

/-- The organizations have candidates that agree. -/
theorem exists_allDotCandidates_agrees
    (hperm : (circles'.map Circle.unindexed).Perm (circles.map Circle.unindexed))
    (hfinite : ∀ c ∈ circles.map Circle.unindexed, c.IsFinite)
    (hdots : allDotCandidates rules circles organizations = some dots) :
    ∃ dots', allDotCandidates rules circles' organizations = some dots' ∧
      List.Forall₂ (List.Forall₂ DotCandidate.Agrees) dots dots' := by
  simp only [allDotCandidates_eq_some_iff] at hdots ⊢
  induction hdots with
  | nil => exact ⟨[], List.Forall₂.nil, List.Forall₂.nil⟩
  | @cons o found _ _ hfound _ ih =>
    obtain ⟨rest', hrest', hagrees⟩ := ih
    -- Apart from the order of the circles, permuting only changes their indices, on which no candidate
    -- depends.
    have hrel : Option.Rel (List.Forall₂ DotCandidate.Agrees)
        (dotCandidates rules (circles.map Circle.unindexed) o)
        (dotCandidates rules (circles'.map Circle.unindexed) o) :=
      dotCandidates_rel (fun c => hperm.mem_iff) hfinite o
    rw [dotCandidates_unindexed, dotCandidates_unindexed, hfound] at hrel
    cases hfound' : dotCandidates rules circles' o with
    | none =>
      rw [hfound'] at hrel
      exact absurd hrel Option.not_rel_some_none
    | some found' =>
      rw [hfound', Option.rel_some_some] at hrel
      exact ⟨found' :: rest', List.Forall₂.cons hfound' hrest', List.Forall₂.cons hrel hagrees⟩

/-- Whether there is a feasible choice does not depend on the order of the circles. -/
theorem exists_feasible_iff_of_agrees
    (hperm : (circles'.map Circle.unindexed).Perm (circles.map Circle.unindexed))
    (hagrees : List.Forall₂ (List.Forall₂ DotCandidate.Agrees) dots dots') :
    (∃ c : Choice, c.Feasible rules circles' dots' (circles'.map (labelCandidates rules))) ↔
      ∃ c : Choice, c.Feasible rules circles dots (circles.map (labelCandidates rules)) := by
  have hconflict : ∀ a b, Encoding.labelsConflict rules a b = Encoding.labelsConflict rules b a :=
    fun a b => labelsOverlap_comm rules _ _ _ _ _ _
  -- The labels are the same in another order, and it does not matter to a conflict which label is first.
  have htexts : (circles'.map (textCandidates rules)).Perm (circles.map (textCandidates rules)) := by
    have hunindexed := hperm.map (textCandidates rules)
    rwa [map_textCandidates_unindexed, map_textCandidates_unindexed] at hunindexed
  have hdots : ∀ choice, FeasibleFor (Encoding.dotsOverlap rules) dots choice ↔
      FeasibleFor (Encoding.dotsOverlap rules) dots' choice :=
    fun choice => feasibleFor_iff (fun _ _ ha _ _ hb => dotsOverlap_eq ha hb) hagrees
  rw [Choice.exists_feasible_iff, Choice.exists_feasible_iff, named_labelCandidates,
    named_labelCandidates, exists_feasibleFor_perm hconflict htexts]
  simp only [hdots]

/-- Least feasible choices take the same numbers for dots that agree, whatever the labels are. -/
theorem Choice.IsLeast.dots_eq {labels labels' : List (List (LabelCandidate α))} {c c' : Choice}
    (hagrees : List.Forall₂ (List.Forall₂ DotCandidate.Agrees) dots dots')
    (h : c.IsLeast rules circles dots labels) (h' : c'.IsLeast rules circles' dots' labels') :
    c'.dots = c.dots := by
  have hleast : LeastFor (Encoding.dotsOverlap rules) dots' c.dots :=
    (leastFor_iff (fun _ _ ha _ _ hb => dotsOverlap_eq ha hb) hagrees).mp (isLeast_iff.mp h).1
  exact hleast.unique (isLeast_iff.mp h').1

end

/-! ### Layouts -/

/-- The category comes with its circle, and the circle is finite. -/
def Category.HasFiniteCircle (c : Category Float) : Prop :=
  ∃ x y r, c.geometry? = some (x, y, r) ∧ x.isFinite = true ∧ y.isFinite = true ∧ r.isFinite = true

/-- The same position with the same score, as doubles are compared: the two zeros are one number. A least
coordinate of several may be either of them, depending on the order. -/
structure Position.Same (p q : Position Float) : Prop where
  x_eq : (p.x == q.x) = true
  y_eq : (p.y == q.y) = true
  score_eq : Option.Rel (fun s t : Float => (s == t) = true) p.score q.score

/-- The same organization, either at the same position or without one. -/
structure PlacedOrganization.SameDot (p q : PlacedOrganization Float) : Prop where
  organization_eq : q.organization = p.organization
  position_rel : Option.Rel Position.Same p.position q.position

/-- Layouts found in the same way, with the same circles in some order, whose dots are the same if they
were found by deciding. -/
structure Layout.SameDots (l l' : Layout Float) : Prop where
  method_eq : l'.method = l.method
  circles_perm : (l'.circles.map fun p => p.circle.unindexed).Perm
    (l.circles.map fun p => p.circle.unindexed)
  dots_eq : l.method = .sat → List.Forall₂ PlacedOrganization.SameDot l.organizations l'.organizations

section
variable {rules : Rules Float} {circles circles' : List (Circle Float)}
  {organizations : List Organization} {dots dots' : List (List (DotCandidate Float))}

/-- A category with a finite circle has all three numbers. -/
theorem Category.HasFiniteCircle.hasGeometry {c : Category Float} (h : c.HasFiniteCircle) :
    c.hasGeometry = true := by
  obtain ⟨x, y, r, hgeometry, -⟩ := h
  rw [← c.isSome_circle? 0, circle?, hgeometry]
  rfl

/-- The circles of such categories are finite. -/
theorem Document.isFinite_of_mem_unindexed {d : Document Float}
    (hfinite : ∀ c ∈ d.categories, c.HasFiniteCircle) (width height : Option Float) :
    ∀ c ∈ (d.fixedCircles rules width height).map Circle.unindexed, c.IsFinite := by
  intro c hc
  have hmem : some c ∈ d.categories.map fun c => c.circle? 0 := by
    rw [← map_some_unindexed (fun c hc => (hfinite c hc).hasGeometry) rules width height]
    exact List.mem_map_of_mem hc
  obtain ⟨category, hcategory, hcircle⟩ := List.mem_map.mp hmem
  obtain ⟨x, y, r, hgeometry, hx, hy, hr⟩ := hfinite category hcategory
  rw [Category.circle?, hgeometry, Option.map_some, Option.some.injEq] at hcircle
  subst hcircle
  exact ⟨hx, hy, hr⟩

/-- Candidates that agree put a dot at the same place. -/
theorem DotCandidate.Agrees.same {a b : DotCandidate Float} (h : a.Agrees b) :
    a.position.Same b.position where
  x_eq := Binary64.beq_of_equals h.x_equals
  y_eq := Binary64.beq_of_equals h.y_equals
  score_eq := Option.Rel.some (Binary64.beq_of_equals h.score_equals)

/-- The dots of a choice among the candidates of organizations. -/
def placedDots (organizations : List Organization) (dots : List (List (DotCandidate Float)))
    (choice : List (Option Nat)) : List (PlacedOrganization Float) :=
  List.zipWith PlacedOrganization.mk organizations
    ((picks dots choice).map (Option.map DotCandidate.position))

/-- The same numbers of candidates that agree give the same dots. -/
theorem forall₂_sameDot {choice : List (Option Nat)}
    (hagrees : List.Forall₂ (List.Forall₂ DotCandidate.Agrees) dots dots') :
    List.Forall₂ PlacedOrganization.SameDot (placedDots organizations dots choice)
      (placedDots organizations dots' choice) := by
  have hpositions : List.Forall₂ (Option.Rel Position.Same)
      ((picks dots choice).map (Option.map DotCandidate.position))
      ((picks dots' choice).map (Option.map DotCandidate.position)) := by
    rw [List.forall₂_map_left_iff, List.forall₂_map_right_iff]
    exact (forall₂_picks hagrees).imp fun _ _ h => rel_map h fun _ _ hab => hab.same
  rw [placedDots, placedDots]
  generalize (picks dots choice).map (Option.map DotCandidate.position) = positions at hpositions
  generalize (picks dots' choice).map (Option.map DotCandidate.position) = positions' at hpositions
  induction hpositions generalizing organizations with
  | nil => simp
  | cons hposition _ ih =>
    cases organizations with
    | nil => exact List.Forall₂.nil
    | cons o os => exact List.Forall₂.cons ⟨rfl, hposition⟩ ih

/-- Layouts with the same circles in another order have the same dots, if those that were chosen are the
same. -/
theorem Layout.sameDots_of_circles {l l' : Layout Float}
    (hperm : (circles'.map Circle.unindexed).Perm (circles.map Circle.unindexed))
    (hcircles : l.circles.map PlacedCircle.circle = circles)
    (hcircles' : l'.circles.map PlacedCircle.circle = circles') (hmethod : l'.method = l.method)
    (hdots : l.method = .sat → List.Forall₂ PlacedOrganization.SameDot l.organizations l'.organizations) :
    l.SameDots l' where
  method_eq := hmethod
  circles_perm := by
    rw [← hcircles, ← hcircles', List.map_map, List.map_map] at hperm
    exact hperm
  dots_eq := hdots

/-- Layouts of least feasible choices. -/
theorem Choice.sameDots_layout {c c' : Choice}
    (hperm : (circles'.map Circle.unindexed).Perm (circles.map Circle.unindexed))
    (hagrees : List.Forall₂ (List.Forall₂ DotCandidate.Agrees) dots dots')
    (h : c.IsLeast rules circles dots (circles.map (labelCandidates rules)))
    (h' : c'.IsLeast rules circles' dots' (circles'.map (labelCandidates rules)))
    (statistics statistics' : Option Statistics) :
    Layout.SameDots
      { c.layout organizations circles dots (circles.map (labelCandidates rules)) with statistics }
      { c'.layout organizations circles' dots' (circles'.map (labelCandidates rules)) with
        statistics := statistics' } := by
  refine Layout.sameDots_of_circles hperm (map_circle_layout organizations h.feasible)
    (map_circle_layout organizations h'.feasible) rfl fun _ => ?_
  -- Both layouts take the same numbers, of candidates that agree.
  show List.Forall₂ PlacedOrganization.SameDot (placedDots organizations dots c.dots)
    (placedDots organizations dots' c'.dots)
  rw [h.dots_eq hagrees h']
  exact forall₂_sameDot hagrees

/-- Fallbacks. Their dots are means, and a mean may depend on the order of what is added. -/
theorem sameDots_fallback
    (hperm : (circles'.map Circle.unindexed).Perm (circles.map Circle.unindexed))
    (statistics statistics' : Option Statistics) :
    Layout.SameDots { fallback rules organizations circles with statistics }
      { fallback rules organizations circles' with statistics := statistics' } := by
  have hcircles : ∀ cs : List (Circle Float),
      (fallback rules organizations cs).circles.map PlacedCircle.circle = cs := by
    intro cs
    simp [fallback, Function.comp_def]
  refine Layout.sameDots_of_circles hperm (hcircles circles) (hcircles circles') rfl fun hmethod => ?_
  exact absurd hmethod (by simp [fallback])

end

/-- The order of the categories does not move any dot. -/
theorem optimize_permutes_categories (rules : Rules Float) {d d' : Document Float}
    (width height : Option Float) (elapsed elapsed' : Float) (h : d.PermutesCategories d')
    (hfinite : ∀ c ∈ d.categories, c.HasFiniteCircle) (hends : d.ScansEnd rules width height) :
    ∃ l l', optimize rules d width height elapsed = .ok l ∧
      optimize rules d' width height elapsed' = .ok l' ∧ l.SameDots l' := by
  have hgeometry : ∀ c ∈ d.categories, c.hasGeometry = true := fun c hc => (hfinite c hc).hasGeometry
  have hperm := h.unindexed_perm hgeometry rules width height
  obtain ⟨dots, hdots⟩ := Option.isSome_iff_exists.mp hends
  obtain ⟨dots', hdots', hagrees⟩ := exists_allDotCandidates_agrees hperm
    (Document.isFinite_of_mem_unindexed hfinite width height) hdots
  have hfeasible : (∃ c : Choice, c.Feasible rules (d'.fixedCircles rules width height) dots'
        ((d'.fixedCircles rules width height).map (labelCandidates rules))) ↔
      ∃ c : Choice, c.Feasible rules (d.fixedCircles rules width height) dots
        ((d.fixedCircles rules width height).map (labelCandidates rules)) :=
    exists_feasible_iff_of_agrees hperm hagrees
  rw [← h.organizations_eq] at hdots'
  obtain ⟨statistics, hcases⟩ := optimize_cases elapsed hdots
  obtain ⟨statistics', hcases'⟩ := optimize_cases elapsed' hdots'
  rw [h.organizations_eq] at hcases'
  -- Either both orders have a feasible choice or neither has, so the outcomes are of one kind.
  rcases hcases with ⟨c, hleast, hlayout⟩ | ⟨hnone, hlayout⟩
  · rcases hcases' with ⟨c', hleast', hlayout'⟩ | ⟨hnone', hlayout'⟩
    · exact ⟨_, _, hlayout, hlayout',
        Choice.sameDots_layout hperm hagrees hleast hleast' statistics statistics'⟩
    · obtain ⟨c', hc'⟩ := hfeasible.mpr ⟨c, hleast.feasible⟩
      exact absurd hc' (hnone' c')
  · rcases hcases' with ⟨c', hleast', hlayout'⟩ | ⟨hnone', hlayout'⟩
    · obtain ⟨c, hc⟩ := hfeasible.mp ⟨c', hleast'.feasible⟩
      exact absurd hc (hnone c)
    · exact ⟨_, _, hlayout, hlayout', sameDots_fallback hperm statistics statistics'⟩

/-- Two categories that overlap, listed in both orders. -/
theorem optimize_permutes_two_categories :
    let a : Category Float := ⟨"A", "red", some 200, some 200, some 100⟩
    let b : Category Float := ⟨"B", "blue", some 320, some 200, some 100⟩
    let organizations : List Organization := [⟨"a", ["A"], none, none⟩, ⟨"b", ["A", "B"], none, none⟩]
    let d : Document Float := ⟨[a, b], organizations⟩
    let d' : Document Float := ⟨[b, a], organizations⟩
    d.PermutesCategories d' ∧ (∀ c ∈ d.categories, c.HasFiniteCircle) ∧
      d.ScansEnd Rules.standard none none ∧
      ∃ l l', optimize Rules.standard d none none 0 = .ok l ∧
        optimize Rules.standard d' none none 0 = .ok l' ∧ l.SameDots l' := by
  intro a b organizations d d'
  have hpermutes : d.PermutesCategories d' := ⟨List.Perm.swap a b [], rfl⟩
  have hfinite : ∀ c ∈ d.categories, c.HasFiniteCircle := by
    have ha : a.HasFiniteCircle := ⟨200, 200, 100, rfl, by decide +kernel⟩
    have hb : b.HasFiniteCircle := ⟨320, 200, 100, rfl, by decide +kernel⟩
    simp [d, ha, hb]
  have hends : d.ScansEnd Rules.standard none none := by
    show (allDotCandidates Rules.standard (d.fixedCircles Rules.standard none none)
      d.organizations).isSome = true
    decide +kernel
  exact ⟨hpermutes, hfinite, hends,
    optimize_permutes_categories Rules.standard none none 0 0 hpermutes hfinite hends⟩

end VennDiagram
