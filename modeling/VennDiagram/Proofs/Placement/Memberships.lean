import VennDiagram.Proofs.Placement.Outcome

/-!
# `VennDiagram.Proofs.Placement.Memberships`: the categories of an organization as a set

An organization lists the names of its categories, in some order and perhaps more than once. Every stage
of a run asks of this list only whether a name is in it: counting for the circles, sampling for the dots,
and the mean of the fallback. So two documents whose organizations belong to the same categories have the
same circles (`Document.SameMemberships.fixedCircles_eq`) and candidates (`allDotCandidates_eq`), and
therefore the same run up to the document itself (`Run.start_of_sameMemberships`).

Their layouts are found in the same way and agree in everything but the lists that are handed on
(`optimize_of_sameMemberships`).
-/

set_option autoImplicit false

namespace VennDiagram

/-- The same organization, with the names of its categories in another order or listed more or less
often. -/
structure Organization.SameMemberships (o o' : Organization) : Prop where
  name_eq : o'.name = o.name
  url_eq : o'.url = o.url
  careers_eq : o'.careers = o.careers
  mem_iff : ∀ name, name ∈ o'.categories ↔ name ∈ o.categories

/-- The same document, but for the lists of categories of its organizations. -/
structure Document.SameMemberships {α : Type} (d d' : Document α) : Prop where
  categories_eq : d'.categories = d.categories
  organizations : List.Forall₂ Organization.SameMemberships d.organizations d'.organizations

/-- Reading lists that are related element by element, where related elements read the same. -/
theorem map_eq_of_forall₂ {β γ δ : Type} {R : β → γ → Prop} {f : β → δ} {g : γ → δ} {xs : List β}
    {ys : List γ} (h : List.Forall₂ R xs ys) (hread : ∀ x y, R x y → g y = f x) :
    ys.map g = xs.map f := by
  rw [← List.forall₂_eq_eq_eq, List.forall₂_map_left_iff, List.forall₂_map_right_iff]
  exact h.flip.imp fun y x hxy => hread x y hxy

namespace Organization.SameMemberships

variable {o o' : Organization}

/-- Asking for a name gives the same answer. -/
theorem contains_eq (h : o.SameMemberships o') : o'.categories.contains = o.categories.contains := by
  funext name
  rw [Bool.eq_iff_iff, List.contains_iff_mem, List.contains_iff_mem]
  exact h.mem_iff name

/-- Both organizations are in the same categories. -/
theorem isIn_eq (h : o.SameMemberships o') : o'.isIn = o.isIn := h.contains_eq

variable {α : Type}

/-- They have the same circles. -/
theorem ownCircles_eq (h : o.SameMemberships o') (circles : List (Circle α)) :
    ownCircles o'.categories circles = ownCircles o.categories circles := by
  rw [ownCircles, ownCircles, h.contains_eq]

variable [Scalar α]

/-- They have the same score at every point. -/
theorem regionScore?_eq (h : o.SameMemberships o') (rules : Rules α) (circles : List (Circle α))
    (x y : α) :
    regionScore? rules o'.categories circles x y = regionScore? rules o.categories circles x y := by
  have hclearance : clearance? rules o'.categories x y = clearance? rules o.categories x y := by
    funext c
    rw [clearance?, clearance?, h.contains_eq]
  rw [regionScore?, regionScore?, hclearance]

/-- The same points of the same grid are accepted, with the same scores. -/
theorem dotCandidates_eq (h : o.SameMemberships o') (rules : Rules α) (circles : List (Circle α)) :
    dotCandidates rules circles o' = dotCandidates rules circles o := by
  simp only [dotCandidates, eligibleDots, h.ownCircles_eq, h.regionScore?_eq]

/-- They have the same mean position. -/
theorem meanPosition?_eq (h : o.SameMemberships o') (circles : List (Circle α)) :
    meanPosition? circles o' = meanPosition? circles o := by
  simp only [meanPosition?, h.ownCircles_eq]

end Organization.SameMemberships

/-! ### Runs -/

section
variable {α : Type} {d d' : Document α}

variable [Scalar α] (rules : Rules α) (width height : Option α)

/-- An organization is counted once for a category, however often it names it. -/
theorem Document.SameMemberships.fixedCircles_eq (h : d.SameMemberships d') :
    d'.fixedCircles rules width height = d.fixedCircles rules width height := by
  refine fixedCircles_eq_of_countP h.categories_eq (fun test => ?_) rules width height
  have hmap := map_eq_of_forall₂ h.organizations fun o o' ho => congrArg test ho.isIn_eq
  have hcounted := congrArg (List.countP id) hmap
  rwa [List.countP_map, List.countP_map] at hcounted

/-- Documents whose organizations have the same memberships have the same candidates. -/
theorem Document.SameMemberships.allDotCandidates_eq (h : d.SameMemberships d')
    (circles : List (Circle α)) :
    allDotCandidates rules circles d'.organizations = allDotCandidates rules circles d.organizations := by
  have hmap := map_eq_of_forall₂ h.organizations fun o o' ho => ho.dotCandidates_eq rules circles
  have hread := congrArg (List.mapM id) hmap
  rwa [List.mapM_map, List.mapM_map] at hread

/-- The run differs in its document only. -/
theorem Run.start_of_sameMemberships (h : d.SameMemberships d') :
    Run.start rules d' width height
      = (Run.start rules d width height).map fun run => { run with document := d' } := by
  have hcircles := h.fixedCircles_eq rules width height
  have hdots := h.allDotCandidates_eq rules (d.fixedCircles rules width height)
  -- A run spells out the centre and the circles, so they are unfolded before its stages are rewritten.
  simp only [Document.fixedCircles, Rules.canvasCenter] at hcircles hdots
  simp only [start, hcircles, hdots]
  cases allDotCandidates rules _ d.organizations with
  | none => rfl
  | some dots =>
    dsimp only
    cases encode .empty rules _ dots _ <;> rfl

end

/-! ### Layouts -/

section
variable {α : Type}

/-- The same dot for organizations that belong to the same categories. -/
structure PlacedOrganization.SamePlace (p p' : PlacedOrganization α) : Prop where
  memberships : p.organization.SameMemberships p'.organization
  position_eq : p'.position = p.position

/-- Layouts that were found in the same way and differ in the lists of categories only. -/
structure Layout.SamePlaces (l l' : Layout α) : Prop where
  method_eq : l'.method = l.method
  circles_eq : l'.circles = l.circles
  organizations : List.Forall₂ PlacedOrganization.SamePlace l.organizations l'.organizations

variable {organizations organizations' : List Organization}

/-- Organizations that are put at the same positions are in the same places. -/
theorem forall₂_samePlace (h : List.Forall₂ Organization.SameMemberships organizations organizations')
    (positions : List (Option (Position α))) :
    List.Forall₂ PlacedOrganization.SamePlace
      (List.zipWith PlacedOrganization.mk organizations positions)
      (List.zipWith PlacedOrganization.mk organizations' positions) := by
  induction h generalizing positions with
  | nil => exact List.Forall₂.nil
  | cons ho _ ih =>
    cases positions with
    | nil => exact List.Forall₂.nil
    | cons position positions => exact List.Forall₂.cons ⟨ho, rfl⟩ (ih positions)

variable [Scalar α]

/-- So are those that are fallen back on. -/
theorem samePlaces_fallback (h : List.Forall₂ Organization.SameMemberships organizations organizations')
    (rules : Rules α) (circles : List (Circle α)) :
    (fallback rules organizations circles).SamePlaces (fallback rules organizations' circles) where
  method_eq := rfl
  circles_eq := rfl
  organizations := by
    rw [fallback, fallback, List.forall₂_map_left_iff, List.forall₂_map_right_iff]
    exact h.imp fun o o' ho => ⟨ho, ho.meanPosition?_eq circles⟩

/-- Documents that differ in the order and the number of the names in their organizations' lists of
categories are laid out alike. The layouts are found in the same way, with the same circles and labels
and the same numbers, up to the time that the search took, which is reported with four places. Every
organization has the same position with the same score, and the lists of categories are handed on as they
are. -/
theorem optimize_of_sameMemberships (rules : Rules α) {d d' : Document α} (width height : Option α)
    (elapsed elapsed' : Float) (h : d.SameMemberships d') (hends : d.ScansEnd rules width height) :
    ∃ l l', optimize rules d width height elapsed = .ok l ∧
      optimize rules d' width height elapsed' = .ok l' ∧
      l.SamePlaces l' ∧
      l'.statistics = l.statistics.map (fun s => { s with elapsed := NumberStyle.roundTo 4 elapsed' }) ∧
      l.organizations.map PlacedOrganization.organization = d.organizations ∧
      l'.organizations.map PlacedOrganization.organization = d'.organizations := by
  obtain ⟨dots, hdots⟩ := Option.isSome_iff_exists.mp hends
  obtain ⟨e, hencodes, hstart⟩ := Run.start_eq hdots
  have hstart' := Run.start_of_sameMemberships rules width height h
  rw [hstart] at hstart'
  have hlabels : ((d.fixedCircles rules width height).map (labelCandidates rules)).length
      = (d.fixedCircles rules width height).length := List.length_map _
  have hlength := (allDotCandidates_eq_some_iff.mp hdots).length_eq
  have hlength' : d'.organizations.length = dots.length := h.organizations.length_eq.symm.trans hlength
  rw [optimize, optimize, hstart, hstart']
  -- Both runs decide one formula, so they end in the same way.
  rcases hencodes.decide_cases with ⟨model, hverdict, -, hleast⟩ | ⟨hverdict, -⟩
  · have hok : e.formula.decide.ok = true := by simp [Result.ok, hverdict]
    have hdecode := hencodes.decode_decide hlabels hlength hleast
    have hdecode' := hencodes.decode_decide hlabels hlength' hleast
    refine ⟨_, _, Run.layout_of_ok elapsed hok hdecode, Run.layout_of_ok elapsed' hok hdecode',
      ⟨rfl, rfl, forall₂_samePlace h.organizations _⟩, rfl, ?_, ?_⟩
    · exact Choice.map_organization_layout hleast.feasible hlength
    · exact Choice.map_organization_layout hleast.feasible hlength'
  · have hok : e.formula.decide.ok = false := by simp [Result.ok, hverdict]
    obtain ⟨hmethod, hcircles, horganizations⟩ :=
      samePlaces_fallback h.organizations rules (d.fixedCircles rules width height)
    refine ⟨_, _, Run.layout_of_not_ok elapsed hok, Run.layout_of_not_ok elapsed' hok,
      ⟨hmethod, hcircles, horganizations⟩, rfl, ?_, ?_⟩
    · exact map_organization_fallback rules d.organizations _
    · exact map_organization_fallback rules d'.organizations _

end

/-- Two categories of which one comes without a circle, and organizations in the one and in both. The one
document names a category twice and lists them in another order, with one that is not there. -/
theorem optimize_of_sameMemberships_repeated :
    let categories : List (Category Float) :=
      [⟨"A", "red", some 200, some 200, some 100⟩, ⟨"B", "blue", none, none, none⟩]
    let d : Document Float :=
      ⟨categories, [⟨"a", ["A"], none, none⟩, ⟨"b", ["A", "B", "C"], some "u", none⟩]⟩
    let d' : Document Float :=
      ⟨categories, [⟨"a", ["A", "A"], none, none⟩, ⟨"b", ["C", "B", "A", "B"], some "u", none⟩]⟩
    d.SameMemberships d' ∧ d.ScansEnd Rules.standard none none ∧
      ∃ l l', optimize Rules.standard d none none 0 = .ok l ∧
        optimize Rules.standard d' none none 1 = .ok l' ∧
        l.SamePlaces l' ∧
        l'.statistics = l.statistics.map (fun s => { s with elapsed := NumberStyle.roundTo 4 1 }) ∧
        l.organizations.map PlacedOrganization.organization = d.organizations ∧
        l'.organizations.map PlacedOrganization.organization = d'.organizations := by
  intro categories d d'
  have hsame : d.SameMemberships d' := by
    refine ⟨rfl, ?_⟩
    refine List.Forall₂.cons ⟨rfl, rfl, rfl, ?_⟩ (List.Forall₂.cons ⟨rfl, rfl, rfl, ?_⟩ List.Forall₂.nil)
    · simp
    · intro name
      simp
      tauto
  -- Whether the scans end is decided by running them.
  have hends : d.ScansEnd Rules.standard none none := by
    show (allDotCandidates Rules.standard (d.fixedCircles Rules.standard none none)
      d.organizations).isSome = true
    decide +kernel
  exact ⟨hsame, hends, optimize_of_sameMemberships Rules.standard none none 0 1 hsame hends⟩

end VennDiagram
