import VennDiagram.Proofs.Placement.Outcome

/-!
# `VennDiagram.Proofs.Placement.Reordering`: the order of the organizations

The circles of a document depend on its organizations by counts only, so putting the organizations in
another order changes no circle (`Document.Reorders.fixedCircles_eq`). The lists of candidates for the
dots then are the same in another order, and the candidates for the labels are the same.

Dots may move, since other choices come first. But whether there is a feasible choice of dots does not
depend on the order, if distances are symmetric; and the least feasible choice of labels does not depend
on the dots at all. So the layout is found in the same way, with the same labels, and the same
organizations are left out (`optimize_reorders`).
-/

set_option autoImplicit false

namespace VennDiagram

variable {α : Type}

/-- The same document with its organizations in another order. -/
structure Document.Reorders (d d' : Document α) : Prop where
  categories_eq : d'.categories = d.categories
  organizations_perm : d'.organizations.Perm d.organizations

/-- Layouts of the same organizations in different orders, found in the same way, with the same circles
and labels, that leave the same organizations out. -/
structure Layout.Reorders (organizations organizations' : List Organization) (l l' : Layout α) :
    Prop where
  organizations_eq : l.organizations.map PlacedOrganization.organization = organizations
  organizations_eq' : l'.organizations.map PlacedOrganization.organization = organizations'
  method_eq : l'.method = l.method
  circles_eq : l'.circles = l.circles
  isNone_eq : ∀ p ∈ l.organizations, ∀ p' ∈ l'.organizations, p'.organization = p.organization →
    p'.position.isNone = p.position.isNone
  unplaced_perm : l'.unplaced.Perm l.unplaced

section
variable {organizations organizations' : List Organization} {l l' : Layout α}

/-- If one test tells in both layouts which organizations have no position, the same ones have none. -/
theorem Layout.reorders_of_forall (test : Organization → Bool)
    (hperm : organizations'.Perm organizations)
    (horganizations : l.organizations.map PlacedOrganization.organization = organizations)
    (horganizations' : l'.organizations.map PlacedOrganization.organization = organizations')
    (hmethod : l'.method = l.method) (hcircles : l'.circles = l.circles)
    (h : ∀ p ∈ l.organizations, p.position.isNone = test p.organization)
    (h' : ∀ p ∈ l'.organizations, p.position.isNone = test p.organization) :
    l.Reorders organizations organizations' l' where
  organizations_eq := horganizations
  organizations_eq' := horganizations'
  method_eq := hmethod
  circles_eq := hcircles
  isNone_eq p hp p' hp' heq := by rw [h p hp, h' p' hp', heq]
  unplaced_perm := by
    rw [unplaced_eq_of_forall test h, unplaced_eq_of_forall test h', horganizations, horganizations']
    exact (hperm.filter test).map Organization.name

end

/-! ### Circles and candidates -/

variable [Scalar α] {rules : Rules α} {d d' : Document α} {width height : Option α}
  {dots : List (List (DotCandidate α))}

/-- Counting does not depend on the order. -/
theorem Document.Reorders.fixedCircles_eq (h : d.Reorders d') :
    d'.fixedCircles rules width height = d.fixedCircles rules width height :=
  fixedCircles_eq_of_countP h.categories_eq (fun _ => h.organizations_perm.countP_eq _) _ _ _

/-- The lists of candidates move along with the organizations. -/
theorem exists_allDotCandidates_of_perm {circles : List (Circle α)}
    {organizations organizations' : List Organization} (hperm : organizations'.Perm organizations)
    (hdots : allDotCandidates rules circles organizations = some dots) :
    ∃ dots', allDotCandidates rules circles organizations' = some dots' ∧ dots'.Perm dots := by
  obtain ⟨dots', hdots', hdotsPerm⟩ :=
    List.perm_comp_forall₂ hperm (allDotCandidates_eq_some_iff.mp hdots)
  exact ⟨dots', allDotCandidates_eq_some_iff.mpr hdots', hdotsPerm⟩

/-! ### Choices -/

/-- The order of the lists of candidates for dots does not matter to whether there is a feasible
choice. -/
theorem exists_feasible_perm [SymmetricDistance α] {circles : List (Circle α)}
    {labels : List (List (LabelCandidate α))} {dots' : List (List (DotCandidate α))}
    (hperm : dots'.Perm dots) :
    (∃ c : Choice, c.Feasible rules circles dots' labels) ↔
      ∃ c : Choice, c.Feasible rules circles dots labels := by
  rw [Choice.exists_feasible_iff, Choice.exists_feasible_iff,
    exists_feasibleFor_perm (dotsOverlap_comm rules) hperm]

/-- Least feasible choices take the same labels, whatever the dots are. -/
theorem Choice.IsLeast.labels_eq {circles : List (Circle α)} {labels : List (List (LabelCandidate α))}
    {dots' : List (List (DotCandidate α))} {c c' : Choice} (h : c.IsLeast rules circles dots labels)
    (h' : c'.IsLeast rules circles dots' labels) : c'.labels = c.labels :=
  (isLeast_iff.mp h).2.unique (isLeast_iff.mp h').2

/-! ### Layouts -/

section
variable {circles : List (Circle α)} {organizations organizations' : List Organization}

/-- Layouts of feasible choices that take the same labels. -/
theorem Choice.reorders_layout {labels : List (List (LabelCandidate α))}
    {dots' : List (List (DotCandidate α))} {c c' : Choice}
    (hperm : organizations'.Perm organizations)
    (hdots : allDotCandidates rules circles organizations = some dots)
    (hdots' : allDotCandidates rules circles organizations' = some dots')
    (h : c.Feasible rules circles dots labels) (h' : c'.Feasible rules circles dots' labels)
    (hlabels : c'.labels = c.labels) (statistics statistics' : Option Statistics) :
    Layout.Reorders organizations organizations'
      { c.layout organizations circles dots labels with statistics }
      { c'.layout organizations' circles dots' labels with statistics := statistics' } := by
  refine Layout.reorders_of_forall (fun o => (dotCandidates rules circles o).any List.isEmpty) hperm
    (map_organization_layout h (allDotCandidates_eq_some_iff.mp hdots).length_eq)
    (map_organization_layout h' (allDotCandidates_eq_some_iff.mp hdots').length_eq) rfl ?_
    (fun p hp => (dot_atCandidate h hdots p hp).isNone_eq)
    (fun p hp => (dot_atCandidate h' hdots' p hp).isNone_eq)
  show (c'.layout organizations' circles dots' labels).circles
    = (c.layout organizations circles dots labels).circles
  rw [layout, layout, hlabels]

/-- Fallbacks place every organization for itself. -/
theorem reorders_fallback (hperm : organizations'.Perm organizations)
    (statistics statistics' : Option Statistics) :
    Layout.Reorders organizations organizations'
      { fallback rules organizations circles with statistics }
      { fallback rules organizations' circles with statistics := statistics' } := by
  have hposition : ∀ os : List Organization, ∀ p ∈ (fallback rules os circles).organizations,
      p.position.isNone = (meanPosition? circles p.organization).isNone := by
    intro os p hp
    obtain ⟨o, -, rfl⟩ := List.mem_map.mp hp
    rfl
  exact Layout.reorders_of_forall (fun o => (meanPosition? circles o).isNone) hperm
    (map_organization_fallback rules _ _) (map_organization_fallback rules _ _) rfl rfl (hposition _)
    (hposition _)

end

/-- Documents that differ in the order of their organizations have layouts found in the same way, with
the same circles and labels, that leave the same organizations out. -/
theorem optimize_reorders [SymmetricDistance α] (rules : Rules α) (width height : Option α)
    (elapsed elapsed' : Float) (h : d.Reorders d') (hends : d.ScansEnd rules width height) :
    ∃ l l', optimize rules d width height elapsed = .ok l ∧
      optimize rules d' width height elapsed' = .ok l' ∧
      l.Reorders d.organizations d'.organizations l' := by
  obtain ⟨dots, hdots⟩ := Option.isSome_iff_exists.mp hends
  obtain ⟨dots', hdots', hdotsPerm⟩ := exists_allDotCandidates_of_perm h.organizations_perm hdots
  obtain ⟨statistics, hcases⟩ := optimize_cases elapsed hdots
  obtain ⟨statistics', hcases'⟩ := optimize_cases elapsed' (h.fixedCircles_eq.symm ▸ hdots')
  rw [h.fixedCircles_eq] at hcases'
  -- Either both documents have a feasible choice or neither has, so the outcomes are of one kind.
  rcases hcases with ⟨c, hleast, hlayout⟩ | ⟨hnone, hlayout⟩
  · rcases hcases' with ⟨c', hleast', hlayout'⟩ | ⟨hnone', hlayout'⟩
    · exact ⟨_, _, hlayout, hlayout', Choice.reorders_layout h.organizations_perm hdots hdots'
        hleast.feasible hleast'.feasible (hleast.labels_eq hleast') statistics statistics'⟩
    · obtain ⟨c', hc'⟩ := (exists_feasible_perm hdotsPerm).mpr ⟨c, hleast.feasible⟩
      exact absurd hc' (hnone' c')
  · rcases hcases' with ⟨c', hleast', hlayout'⟩ | ⟨hnone', hlayout'⟩
    · obtain ⟨c, hc⟩ := (exists_feasible_perm hdotsPerm).mp ⟨c', hleast'.feasible⟩
      exact absurd hc (hnone c)
    · exact ⟨_, _, hlayout, hlayout',
        reorders_fallback h.organizations_perm statistics statistics'⟩

/-- Two organizations in two circles that overlap, listed in both orders. -/
theorem optimize_reorders_two_circles :
    let categories : List (Category Float) :=
      [⟨"A", "red", some 200, some 200, some 100⟩, ⟨"B", "blue", some 320, some 200, some 100⟩]
    let a : Organization := ⟨"a", ["A"], none, none⟩
    let b : Organization := ⟨"b", ["A", "B"], none, none⟩
    let d : Document Float := ⟨categories, [a, b]⟩
    let d' : Document Float := ⟨categories, [b, a]⟩
    d.Reorders d' ∧ d.ScansEnd Rules.standard none none ∧
      ∃ l l', optimize Rules.standard d none none 0 = .ok l ∧
        optimize Rules.standard d' none none 0 = .ok l' ∧
        l.Reorders d.organizations d'.organizations l' := by
  intro categories a b d d'
  have hreorders : d.Reorders d' := ⟨rfl, List.Perm.swap a b []⟩
  have hends : d.ScansEnd Rules.standard none none := by
    show (allDotCandidates Rules.standard (d.fixedCircles Rules.standard none none)
      d.organizations).isSome = true
    decide +kernel
  exact ⟨hreorders, hends, optimize_reorders Rules.standard none none 0 0 hreorders hends⟩

end VennDiagram
