import Mathlib.Algebra.Order.BigOperators.Group.List
import VennDiagram.Proofs.Document.WellFormed
import VennDiagram.Proofs.Placement.Exact
import VennDiagram.Proofs.Placement.Faultless

/-!
# `VennDiagram.Proofs.Placement.Fallback`: nobody is left out of the fallback

The fallback looks for the circles of an organization by name. Checking a document compares names too, but
those of categories, so the two agree because there is one circle for each category, with its name
(`Document.map_name_circles`), whether the circles come with the document or are put on a ring. Therefore a
name that is listed in a valid document is that of just one circle (`Document.exists_filter_circles`).

An organization is placed if it has a circle, and in a valid document it has one if it lists a category
(`Document.ownCircles_circles_ne_nil`). So the fallback leaves out the organizations that list none, and
nothing else. It puts a dot at the mean of centres, and without rounding a mean is neither below all of
what it is taken of nor above all of it (`exists_le_mean`, `exists_mean_le`). `fallback_complete` has it
all together.
-/

set_option autoImplicit false

namespace VennDiagram

/-! ### Names -/

/-- Where no name is repeated, a name that there is belongs to one element only. -/
theorem exists_filter_eq_singleton {β : Type} {f : β → String} {xs : List β} (hnodup : (xs.map f).Nodup)
    {name : String} (hname : name ∈ xs.map f) : ∃ x, xs.filter (fun x => f x = name) = [x] := by
  have hcount : (xs.map f).count name = 1 := List.count_eq_one_of_mem hnodup hname
  rw [List.count, List.countP_map, List.countP_eq_length_filter] at hcount
  exact List.length_eq_one_iff.mp hcount

section
variable {α : Type} [Scalar α]

namespace Document

/-- The circles have the names of the categories, in order. -/
theorem map_name_circles (d : Document α) (rules : Rules α) (center : α × α) :
    (d.circles rules center).map Circle.name = d.categories.map Category.name := by
  have hcircles := congrArg (List.map fun p => p.2.1) (d.map_circles rules center)
  have hcategories : d.categories.zipIdx.map (fun p => p.1.name)
      = (d.categories.zipIdx.map Prod.fst).map Category.name := List.map_map.symm
  rw [List.map_map, List.map_map] at hcircles
  rw [List.zipIdx_map_fst] at hcategories
  exact hcircles.trans hcategories

variable {d : Document α} (hvalid : d.defects = []) (rules : Rules α) (center : α × α) {o : Organization}
  (ho : o ∈ d.organizations)
include hvalid ho

/-- In a document without defects every category that an organization lists has a circle. -/
theorem mem_map_name_circles {name : String} (hname : name ∈ o.categories) :
    name ∈ (d.circles rules center).map Circle.name := by
  obtain ⟨category, hcategory, rfl⟩ := (defects_eq_nil_iff.mp hvalid).listed o ho name hname
  rw [map_name_circles]
  exact List.mem_map_of_mem hcategory

/-- A name that is listed is that of one circle. -/
theorem exists_filter_circles {name : String} (hname : name ∈ o.categories) :
    ∃ c, (d.circles rules center).filter (fun c => c.name = name) = [c] := by
  refine exists_filter_eq_singleton ?_ (mem_map_name_circles hvalid rules center ho hname)
  rw [map_name_circles]
  exact (defects_eq_nil_iff.mp hvalid).nodup_categories

/-- An organization that lists a category has a circle. -/
theorem ownCircles_circles_ne_nil (hlists : o.categories ≠ []) :
    ownCircles o.categories (d.circles rules center) ≠ [] := by
  obtain ⟨name, hname⟩ := List.exists_mem_of_ne_nil _ hlists
  obtain ⟨c, hc, rfl⟩ := List.mem_map.mp (mem_map_name_circles hvalid rules center ho hname)
  exact List.ne_nil_of_mem (List.mem_filter.mpr ⟨hc, List.contains_iff_mem.mpr hname⟩)

end Document

/-! ### Who is placed -/

/-- There is a mean position exactly if there is a circle to take it over. -/
theorem isSome_meanPosition? (circles : List (Circle α)) (o : Organization) :
    (meanPosition? circles o).isSome = true ↔ ownCircles o.categories circles ≠ [] := by
  rw [meanPosition?]
  cases ownCircles o.categories circles with
  | nil => simp
  | cons c rest => simp

/-- There is a label for each circle, and an entry for each organization, without a position only if it
lists no category. -/
structure Layout.Complete (organizations : List Organization) (circles : List (Circle α)) (l : Layout α) :
    Prop where
  circles_eq : l.circles.map PlacedCircle.circle = circles
  labelled : ∀ p ∈ l.circles, p.label.isSome = true
  organizations_eq : l.organizations.map PlacedOrganization.organization = organizations
  placed_iff : ∀ p ∈ l.organizations, p.position.isSome = true ↔ p.organization.categories ≠ []
  unplaced_eq : l.unplaced = (organizations.filter fun o => o.categories.isEmpty).map Organization.name

/-- The fallback is complete if organizations that list a category have a circle. -/
theorem complete_of_ownCircles (rules : Rules α) {organizations : List Organization}
    {circles : List (Circle α)}
    (hown : ∀ o ∈ organizations, o.categories ≠ [] → ownCircles o.categories circles ≠ []) :
    (fallback rules organizations circles).Complete organizations circles := by
  have hplaced : ∀ p ∈ (fallback rules organizations circles).organizations,
      p.position.isSome = true ↔ p.organization.categories ≠ [] := by
    intro p hp
    obtain ⟨o, ho, rfl⟩ := List.mem_map.mp hp
    show (meanPosition? circles o).isSome = true ↔ o.categories ≠ []
    rw [isSome_meanPosition?]
    refine ⟨fun hne hnil => hne ?_, hown o ho⟩
    -- Who lists nothing has no circle.
    rw [hnil]
    exact List.filter_eq_nil_iff.mpr fun c _ => by simp
  refine ⟨map_circle_fallback rules organizations circles, ?_,
    map_organization_fallback rules organizations circles, hplaced, ?_⟩
  · intro p hp
    obtain ⟨c, -, rfl⟩ := List.mem_map.mp hp
    rfl
  · rw [Layout.unplaced_eq_of_forall (fun o => o.categories.isEmpty),
      map_organization_fallback]
    intro p hp
    have hiff := hplaced p hp
    rw [Bool.eq_iff_iff, Option.isNone_iff_eq_none, List.isEmpty_iff]
    rw [Option.isSome_iff_ne_none] at hiff
    exact not_iff_not.mp hiff

end

/-! ### Means -/

/-- Over the reals the sum of a list is its sum. -/
theorem sum_eq (xs : List ℝ) : Scalar.sum xs = xs.sum := by
  have hzero : (Scalar.ofNat 0 : ℝ) = 0 := Int.cast_zero
  rw [Scalar.sum, hzero, List.sum_eq_foldl]

section
variable {circles : List (Circle ℝ)} (f : Circle ℝ → ℝ) (hne : circles ≠ [])
include hne

/-- As many means as there are circles add up to what the circles add up to. -/
theorem sum_map_mean :
    (circles.map fun _ => Scalar.sum (circles.map f) / Scalar.ofNat circles.length).sum
      = (circles.map f).sum := by
  have hcount : (Scalar.ofNat circles.length : ℝ) = circles.length := Int.cast_natCast _
  have hpos : (circles.length : ℝ) ≠ 0 := Nat.cast_ne_zero.mpr (List.length_pos_iff.mpr hne).ne'
  rw [List.map_const', List.sum_replicate, nsmul_eq_mul, hcount, sum_eq, mul_div_cancel₀ _ hpos]

/-- Some circle is not above the mean. -/
theorem exists_le_mean : ∃ c ∈ circles, f c ≤ Scalar.sum (circles.map f) / Scalar.ofNat circles.length :=
  List.exists_le_of_sum_le hne f _ (sum_map_mean f hne).ge

/-- Some circle is not below the mean. -/
theorem exists_mean_le : ∃ c ∈ circles, Scalar.sum (circles.map f) / Scalar.ofNat circles.length ≤ f c :=
  List.exists_le_of_sum_le hne _ f (sum_map_mean f hne).le

end

/-- The point lies in the bounding box of the centres of the circles. Along either axis, a centre is at
most as far as the point, and a centre at least as far. -/
structure InBoundingBox (circles : List (Circle ℝ)) (x y : ℝ) : Prop where
  left_le : ∃ c ∈ circles, c.x ≤ x
  le_right : ∃ c ∈ circles, x ≤ c.x
  top_le : ∃ c ∈ circles, c.y ≤ y
  le_bottom : ∃ c ∈ circles, y ≤ c.y

/-- A mean of centres lies in the box around the circles. -/
theorem inBoundingBox_of_meanPosition? {circles : List (Circle ℝ)} {o : Organization} {p : Position ℝ}
    (h : meanPosition? circles o = some p) : InBoundingBox (ownCircles o.categories circles) p.x p.y := by
  have hne : ownCircles o.categories circles ≠ [] :=
    (isSome_meanPosition? circles o).mp (Option.isSome_of_eq_some h)
  rw [meanPosition?, List.isEmpty_eq_false_iff.mpr hne] at h
  obtain rfl := Option.some.inj h
  exact ⟨exists_le_mean Circle.x hne, exists_mean_le Circle.x hne, exists_le_mean Circle.y hne,
    exists_mean_le Circle.y hne⟩

/-! ### Valid documents -/

/-- In a document without defects, every name that an organization lists is that of one circle. The
fallback gives every circle a label, and every organization a position, unless it lists no category. Without
rounding, a position lies in the bounding box of the centres of the organization's circles. -/
theorem fallback_complete :
    (∀ {α : Type} [Scalar α] (d : Document α) (rules : Rules α) (center : α × α), d.defects = [] →
      let circles := d.circles rules center
      (∀ o ∈ d.organizations, ∀ name ∈ o.categories,
        ∃ c, circles.filter (fun c => c.name = name) = [c]) ∧
      (fallback rules d.organizations circles).Complete d.organizations circles) ∧
    ∀ (d : Document ℝ) (rules : Rules ℝ) (center : ℝ × ℝ),
      let circles := d.circles rules center
      ∀ p ∈ (fallback rules d.organizations circles).organizations, ∀ a ∈ p.position,
        InBoundingBox (ownCircles p.organization.categories circles) a.x a.y := by
  constructor
  · intro α _ d rules center hvalid circles
    constructor
    · intro o ho name hname
      exact Document.exists_filter_circles hvalid rules center ho hname
    · exact complete_of_ownCircles rules fun o ho => Document.ownCircles_circles_ne_nil hvalid rules center ho
  · intro d rules center circles p hp a ha
    obtain ⟨o, -, rfl⟩ := List.mem_map.mp hp
    exact inBoundingBox_of_meanPosition? ha

/-- Two categories on a ring, an organization in both, one of them named twice, and one in none. -/
theorem fallback_complete_ring :
    let d : Document Float :=
      { categories := [⟨"A", "red", none, none, none⟩, ⟨"a ", "blue", none, none, none⟩]
        organizations := [⟨"o", ["a ", "A", "a "], none, none⟩, ⟨"p", [], none, none⟩] }
    let circles := d.circles Rules.standard Rules.standard.center
    d.defects = [] ∧
      (∀ o ∈ d.organizations, ∀ name ∈ o.categories,
        ∃ c, circles.filter (fun c => c.name = name) = [c]) ∧
      (fallback Rules.standard d.organizations circles).Complete d.organizations circles := by
  intro d circles
  have hvalid : d.defects = [] := by decide +kernel
  exact ⟨hvalid, fallback_complete.1 d Rules.standard Rules.standard.center hvalid⟩

end VennDiagram
