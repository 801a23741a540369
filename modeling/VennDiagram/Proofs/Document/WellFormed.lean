import VennDiagram.Document.Defect
import VennDiagram.Document.Reader
import VennDiagram.Proofs.Number.Doubles

/-!
# `VennDiagram.Proofs.Document.WellFormed`: documents without defects

A document is well-formed if it has a category, if names show and are not repeated, if circles are given
for all categories or for none, if every radius is one, and if organizations list categories that are
there (`Document.WellFormed`). Defects are found by several passes, and two of them remember the names
that they have passed. What a pass from any point on finds to be in order is said of each of them
(`categoryNameDefects_eq_nil_iff`, `organizationDefects_eq_nil_iff`), where a name is fresh if it has
not been passed (`Fresh`). Together the passes find nothing if and only if the document is well-formed
(`defects_eq_nil_iff`).

A radius passes if it is not zero or less. That is not the same as being greater than zero: NaN is
neither. So a circle of doubles may come with a radius that is no number
(`defects_eq_nil_iff_radius_pos_or_nan`, `defects_eq_nil_radius_nan`).
-/

set_option autoImplicit false

namespace VennDiagram

/-- The name has a character that is not blank. -/
def Shows (name : String) : Prop := ∃ c ∈ name.toList, Text.isBlank c = false

/-- The category comes with nothing of a circle. -/
def Category.IsBare {α : Type} (c : Category α) : Prop := c.x = none ∧ c.y = none ∧ c.r = none

/-- A document that a layout can be made of, where `IsRadius` says what a radius is. -/
structure Document.WellFormed {α : Type} (IsRadius : α → Prop) (d : Document α) : Prop where
  exists_category : d.categories ≠ []
  category_shows : ∀ c ∈ d.categories, Shows c.name
  organization_shows : ∀ o ∈ d.organizations, Shows o.name
  nodup_categories : (d.categories.map Category.name).Nodup
  nodup_organizations : (d.organizations.map Organization.name).Nodup
  geometry : (∀ c ∈ d.categories, c.x ≠ none ∧ c.y ≠ none ∧ c.r ≠ none) ∨
    ∀ c ∈ d.categories, c.IsBare
  radius : ∀ c ∈ d.categories, ∀ r ∈ c.r, IsRadius r
  listed : ∀ o ∈ d.organizations, ∀ name ∈ o.categories, ∃ c ∈ d.categories, c.name = name

/-! ### Names -/

/-- A name is not blank exactly if something of it shows. -/
theorem Document.isBlankName_eq_false_iff {name : String} :
    isBlankName name = false ↔ Shows name := by
  simp only [isBlankName, Text.allBlank, List.all_eq_false, Bool.not_eq_true, Shows]

/-- No name is repeated, and none has been seen. -/
def Fresh (seen names : List String) : Prop := names.Nodup ∧ ∀ name ∈ names, name ∉ seen

/-- No names are always new. -/
theorem Fresh.nil (seen : List String) : Fresh seen [] := ⟨List.nodup_nil, by simp⟩

/-- What has been passed is seen by the rest. -/
theorem fresh_cons_iff {seen names : List String} {name : String} :
    Fresh seen (name :: names) ↔ name ∉ seen ∧ Fresh (name :: seen) names := by
  rw [Fresh, Fresh, List.nodup_cons, List.forall_mem_cons]
  simp only [List.mem_cons, not_or]
  constructor
  · rintro ⟨⟨hname, hnodup⟩, hseen, hrest⟩
    exact ⟨hseen, hnodup, fun other hother => ⟨fun h => hname (h ▸ hother), hrest other hother⟩⟩
  · rintro ⟨hseen, hnodup, hrest⟩
    exact ⟨⟨fun hname => (hrest name hname).1 rfl, hnodup⟩, hseen, fun other hother => (hrest other hother).2⟩

/-- Names are new where none have been seen exactly if none comes twice. -/
theorem fresh_nil_iff {names : List String} : Fresh [] names ↔ names.Nodup :=
  and_iff_left fun _ _ => List.not_mem_nil

namespace Document

/-- The names from some position on are in order if they show and are fresh. -/
theorem categoryNameDefects_eq_nil_iff {index : Nat} {seen names : List String} :
    categoryNameDefects index seen names = [] ↔ (∀ name ∈ names, Shows name) ∧ Fresh seen names := by
  induction names generalizing index seen with
  | nil => exact iff_of_true rfl ⟨by simp, Fresh.nil seen⟩
  | cons name names ih =>
    rw [categoryNameDefects, List.forall_mem_cons, fresh_cons_iff, ← isBlankName_eq_false_iff]
    cases isBlankName name with
    | true => simp
    | false =>
      simp only [Bool.false_eq_true, if_false, List.append_eq_nil_iff, ih, true_and]
      simp only [ite_eq_right_iff, List.cons_ne_nil, imp_false, List.contains_iff_mem]
      exact and_left_comm

/-- The name of an organization is faultless exactly if it shows and is new. -/
theorem organizationNameDefects_eq_nil_iff {index : Nat} {seen : List String} {name : String} :
    organizationNameDefects index seen name = [] ↔ Shows name ∧ name ∉ seen := by
  rw [organizationNameDefects, ← isBlankName_eq_false_iff]
  cases isBlankName name with
  | true => simp
  | false => simp

/-- The organizations from some position on are in order if their names show and are fresh, and if they
list nothing unknown. -/
theorem organizationDefects_eq_nil_iff {known seen : List String} {index : Nat}
    {organizations : List Organization} :
    organizationDefects known index seen organizations = [] ↔
      (∀ o ∈ organizations, Shows o.name) ∧ Fresh seen (organizations.map Organization.name) ∧
        ∀ o ∈ organizations, ∀ name ∈ o.categories, name ∈ known := by
  induction organizations generalizing index seen with
  | nil => exact iff_of_true rfl ⟨by simp, Fresh.nil seen, by simp⟩
  | cons o organizations ih =>
    have hlisted : (o.categories.filter fun c => !known.contains c).map (Defect.unknownCategory o.name)
          = [] ↔
        ∀ name ∈ o.categories, name ∈ known := by
      simp [List.filter_eq_nil_iff]
    rw [organizationDefects, List.append_eq_nil_iff, List.append_eq_nil_iff, ih, hlisted,
      organizationNameDefects_eq_nil_iff, List.map_cons, fresh_cons_iff]
    simp only [List.forall_mem_cons]
    tauto

/-- A name is known exactly if it shows and a category has it. -/
theorem mem_knownNames_iff {α : Type} {d : Document α} {name : String} :
    name ∈ knownNames d ↔ (∃ c ∈ d.categories, c.name = name) ∧ Shows name := by
  rw [knownNames, List.mem_filter, List.mem_map, ← isBlankName_eq_false_iff, Bool.not_eq_true']

/-! ### Circles -/

section
variable {α : Type} {c : Category α} {d : Document α}

/-- A category has a circle exactly if all three numbers are there. -/
theorem hasGeometry_iff : c.hasGeometry = true ↔ c.x ≠ none ∧ c.y ≠ none ∧ c.r ≠ none := by
  simp only [Category.hasGeometry, Bool.and_eq_true, Option.isSome_iff_ne_none, and_assoc]

/-- A category with a circle is not bare. -/
theorem not_isBare_of_hasGeometry (h : c.hasGeometry = true) : ¬ c.IsBare :=
  fun hbare => (hasGeometry_iff.mp h).1 hbare.1

/-- Circles are in order as a whole if all are given or none is. -/
theorem mixedGeometryDefects_eq_nil_iff :
    mixedGeometryDefects d = [] ↔
      (∀ c ∈ d.categories, c.hasGeometry = true) ∨ ∀ c ∈ d.categories, ¬ c.hasGeometry = true := by
  have hle : d.categories.countP Category.hasGeometry ≤ d.categories.length := List.countP_le_length
  rw [mixedGeometryDefects, ite_eq_right_iff, ← List.countP_eq_length, ← List.countP_eq_zero]
  simp only [List.cons_ne_nil, imp_false]
  omega

/-- Circle by circle and as a whole, circles are in order if all are given or nothing of any. -/
theorem wholeGeometry_iff :
    ((∀ c ∈ d.categories, c.hasGeometry = true ∨ c.IsBare) ∧ mixedGeometryDefects d = []) ↔
      (∀ c ∈ d.categories, c.x ≠ none ∧ c.y ≠ none ∧ c.r ≠ none) ∨ ∀ c ∈ d.categories, c.IsBare := by
  simp only [mixedGeometryDefects_eq_nil_iff, ← hasGeometry_iff]
  constructor
  · rintro ⟨heach, hall | hnone⟩
    · exact Or.inl hall
    · exact Or.inr fun c hc => (heach c hc).resolve_left (hnone c hc)
  · rintro (hall | hbare)
    · exact ⟨fun c hc => Or.inl (hall c hc), Or.inl hall⟩
    · exact ⟨fun c hc => Or.inr (hbare c hc),
        Or.inr fun c hc hgiven => not_isBare_of_hasGeometry hgiven (hbare c hc)⟩

end

section
variable {α : Type} [Scalar α] {d : Document α}

/-- The circle of a category is in order if it is given as a whole or not at all, and if its radius is
not zero or less. -/
theorem geometryDefects_eq_nil_iff {c : Category α} :
    geometryDefects c = [] ↔ (c.hasGeometry = true ∨ c.IsBare) ∧ ∀ r ∈ c.r, ¬ r ≤ Scalar.ofNat 0 := by
  obtain ⟨name, color, x, y, r⟩ := c
  cases x <;> cases y <;> cases r <;>
    simp [geometryDefects, Category.hasPartialGeometry, Category.hasGeometry, Category.IsBare]

/-- Nothing is wrong with a document if and only if it is well-formed, a radius being whatever is not
zero or less. -/
theorem defects_eq_nil_iff :
    d.defects = [] ↔ d.WellFormed fun r => ¬ r ≤ Scalar.ofNat 0 := by
  have hempty : (if d.categories.isEmpty = true then [Defect.noCategory] else []) = [] ↔
      d.categories ≠ [] := by
    simp
  have hcircles : d.categories.flatMap geometryDefects = [] ↔
      (∀ c ∈ d.categories, c.hasGeometry = true ∨ c.IsBare) ∧
        ∀ c ∈ d.categories, ∀ r ∈ c.r, ¬ r ≤ Scalar.ofNat 0 := by
    simp only [List.flatMap_eq_nil_iff, geometryDefects_eq_nil_iff, forall_and]
  have hgeometry := wholeGeometry_iff (d := d)
  -- The defects are those of several checks, one after the other, and each is turned into what it asks
  -- for.
  simp only [defects, List.append_eq_nil_iff, hempty, hcircles, categoryNameDefects_eq_nil_iff,
    organizationDefects_eq_nil_iff, fresh_nil_iff, List.forall_mem_map, mem_knownNames_iff]
  constructor
  · rintro ⟨⟨⟨⟨hsome, hshows, hnodup⟩, heach, hradius⟩, hmixed⟩, hshows', hnodup', hknown⟩
    exact
      { exists_category := hsome
        category_shows := hshows
        organization_shows := hshows'
        nodup_categories := hnodup
        nodup_organizations := hnodup'
        geometry := hgeometry.mp ⟨heach, hmixed⟩
        radius := hradius
        listed := fun o ho name hname => (hknown o ho name hname).1 }
  · intro h
    obtain ⟨heach, hmixed⟩ := hgeometry.mpr h.geometry
    refine ⟨⟨⟨⟨h.exists_category, h.category_shows, h.nodup_categories⟩, heach, h.radius⟩, hmixed⟩,
      h.organization_shows, h.nodup_organizations, fun o ho name hname => ?_⟩
    obtain ⟨c, hc, rfl⟩ := h.listed o ho name hname
    exact ⟨⟨c, hc, rfl⟩, h.category_shows c hc⟩

end
end Document

/-! ### Radii that are doubles -/

namespace Binary64

/-- A double is no number exactly if it is unpacked as none. -/
theorem isNaN_iff {x : Float} : x.isNaN = true ↔ x.toModel.unpack = .notANumber := by
  have hunpacked : x.isNaN = x.toModel.unpack.isNaN := rfl
  rw [hunpacked]
  cases x.toModel.unpack <;> simp [Float.Model.UnpackedFloat.isNaN]

/-- What is not at most another number is greater, or it is no number. -/
theorem not_le_iff {x y : Float} (hy : y ≤ y) : ¬ x ≤ y ↔ y < x ∨ x.isNaN = true := by
  rw [isNaN_iff]
  by_cases hx : x ≤ x
  · have hnumber := le_self_iff.mp hx
    rw [OrderedScalar.lt_iff_not_le y x hy hx, or_iff_left hnumber]
  · have hnan : x.toModel.unpack = .notANumber := not_not.mp fun h => hx (le_self_iff.mpr h)
    exact iff_of_true (fun h => hx (LinearScalar.le_self_of_le h).1) (Or.inr hnan)

end Binary64

namespace Document

/-- Nothing is wrong with a document of doubles if and only if it is well-formed, a radius being greater
than zero or NaN. -/
theorem defects_eq_nil_iff_radius_pos_or_nan (d : Document Float) :
    d.defects = [] ↔ d.WellFormed fun r => 0 < r ∨ r.isNaN = true := by
  have hzero : (Scalar.ofNat 0 : Float) = 0 := by decide +kernel
  have hnumber : (0 : Float) ≤ 0 := by decide +kernel
  have hradius : ∀ r : Float, ¬ r ≤ Scalar.ofNat 0 ↔ 0 < r ∨ r.isNaN = true := by
    intro r
    rw [hzero, Binary64.not_le_iff hnumber]
  simp only [defects_eq_nil_iff, hradius]

/-- A document that is read from JSON and has no defects, though the radius of its circle is not greater
than zero. -/
theorem defects_eq_nil_radius_nan :
    let v : Json := .obj
      [ ("categories", .arr
          [.obj [("name", .str "A"), ("x", .int 0), ("y", .int 0), ("r", .float (0.0 / 0.0))]])]
    let d : Document Float := { categories := [⟨"A", "#888888", some 0, some 0, some (0.0 / 0.0)⟩]
                                organizations := [] }
    ofJson v = .ok d ∧ d.defects = [] ∧ ¬ d.WellFormed fun r => 0 < r := by
  intro v d
  refine ⟨rfl, by decide +kernel, fun h => ?_⟩
  have hradius := h.radius _ List.mem_cons_self _ rfl
  exact absurd hradius (by decide +kernel)

end Document
end VennDiagram
