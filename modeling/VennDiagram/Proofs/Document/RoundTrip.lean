import VennDiagram.Document.Defect
import VennDiagram.Document.Reader
import VennDiagram.Document.Writer
import VennDiagram.Proofs.Steps

/-!
# `VennDiagram.Proofs.Document.RoundTrip`: reading a document that was written

Writing a document keeps a circle only if it is complete, and a link only if it is not empty. What is
left of the document is `Document.brief`, and that is what the written document is read as
(`ofJson_toJson`). Nothing more is lost by writing it again (`toJson_brief`).

A document without defects has no circle that is not complete. So it is read back as it was, except that
empty links are gone (`ofJson_toJson_of_defects_eq_nil`).
-/

set_option autoImplicit false

namespace VennDiagram

/-! ### What writing keeps -/

/-- The category without a circle that is not complete. -/
def Category.brief {α : Type} (c : Category α) : Category α :=
  if c.hasGeometry then c else { c with x := none, y := none, r := none }

/-- The organization without empty links. -/
def Organization.brief (o : Organization) : Organization :=
  { o with url := nonempty? o.url, careers := nonempty? o.careers }

/-- The document without circles that are not complete and without empty links. -/
def Document.brief {α : Type} (d : Document α) : Document α :=
  { categories := d.categories.map Category.brief
    organizations := d.organizations.map Organization.brief }

/-- Dropping an empty link changes nothing exactly if it is not empty. -/
theorem nonempty?_eq_self_iff {s : Option String} : nonempty? s = s ↔ s ≠ some "" := by
  cases s with
  | none => simp [nonempty?]
  | some s => simp [nonempty?, Option.filter]

/-- Dropping it twice is dropping it once. -/
theorem nonempty?_nonempty? (s : Option String) : nonempty? (nonempty? s) = nonempty? s := by
  rw [nonempty?_eq_self_iff]
  intro h
  simp [nonempty?, Option.filter_eq_some_iff] at h

/-- A circle is kept if it is all there, and then there is nothing to keep if it is all missing. -/
theorem Category.brief_eq_self {α : Type} {c : Category α} (h : c.hasPartialGeometry = false) :
    c.brief = c := by
  obtain ⟨name, color, x, y, r⟩ := c
  cases x <;> cases y <;> cases r <;> simp [hasPartialGeometry, hasGeometry] at h <;> rfl

/-- An organization is written in full exactly if neither link is empty. -/
theorem Organization.brief_eq_self_iff {o : Organization} :
    o.brief = o ↔ o.url ≠ some "" ∧ o.careers ≠ some "" := by
  rw [← nonempty?_eq_self_iff, ← nonempty?_eq_self_iff]
  obtain ⟨name, categories, url, careers⟩ := o
  simp [brief]

/-- A list is left as it is exactly if each element is. -/
theorem map_eq_self_iff {β : Type} {f : β → β} {xs : List β} : xs.map f = xs ↔ ∀ x ∈ xs, f x = x := by
  have h : xs.map f = xs.map id ↔ ∀ x ∈ xs, f x = id x := List.map_inj_left
  rwa [List.map_id] at h

namespace Document

/-! ### Reading what was written -/

/-- A category is read as it was written, without what writing drops. -/
theorem category_categoryToJson (c : Category Float) (i : Nat) :
    category (categoryToJson c) i = .ok c.brief := by
  obtain ⟨name, color, x, y, r⟩ := c
  cases x <;> cases y <;> cases r <;> rfl

/-- Names that were written are read as the same names. -/
theorem members_strings (names : List String) (i : Nat) :
    ((names.map Json.str).zipIdx.mapM fun (m, j) => string (.membership i j) m) = .ok names := by
  rw [mapM_zipIdx_map_eq_ok (fun m j => string (.membership i j) m) Json.str (g := id) fun _ _ _ => rfl,
    List.map_id]

/-- Whatever links an organization is written with, its name and its categories are read back. -/
theorem members_bind (name : String) (categories : List String) (i : Nat) (url careers : Option String) :
    (((categories.map Json.str).zipIdx.mapM fun (m, j) => string (.membership i j) m) >>=
      fun categories => Except.ok (Organization.mk name categories url careers))
      = .ok ⟨name, categories, url, careers⟩ := by
  rw [members_strings, bind_ok]

/-- An organization is read as it was written, without what writing drops. -/
theorem organization_organizationToJson (o : Organization) (i : Nat) :
    organization (organizationToJson o) i = .ok o.brief := by
  obtain ⟨name, categories, url, careers⟩ := o
  rw [organizationToJson, linkField, linkField, Organization.brief]
  cases nonempty? url <;> cases nonempty? careers <;> exact members_bind name categories i _ _

/-- Objects that are read one by one, whatever they were made of, make a document that is read. -/
theorem ofJson_of_items {β γ : Type} {categoryJson : β → Json} {organizationJson : γ → Json}
    {readCategory : β → Category Float} {readOrganization : γ → Organization}
    (hcategory : ∀ c i, category (categoryJson c) i = .ok (readCategory c))
    (horganization : ∀ o i, organization (organizationJson o) i = .ok (readOrganization o))
    (cs : List β) (os : List γ) :
    ofJson (.obj
      [("categories", .arr (cs.map categoryJson)), ("organizations", .arr (os.map organizationJson))])
      = .ok ⟨cs.map readCategory, os.map readOrganization⟩ := by
  have hcategories : ((cs.map categoryJson).zipIdx.mapM fun (c, i) => category c i)
      = .ok (cs.map readCategory) :=
    mapM_zipIdx_map_eq_ok category categoryJson fun c _ i => hcategory c i
  have horganizations : ((os.map organizationJson).zipIdx.mapM fun (o, i) => organization o i)
      = .ok (os.map readOrganization) :=
    mapM_zipIdx_map_eq_ok organization organizationJson fun o _ i => horganization o i
  show (((cs.map categoryJson).zipIdx.mapM fun (c, i) => category c i) >>= fun categories =>
    ((os.map organizationJson).zipIdx.mapM fun (o, i) => organization o i) >>=
      fun organizations => Except.ok (Document.mk categories organizations)) = _
  rw [hcategories, bind_ok, horganizations, bind_ok]

/-- A document is read back as what writing keeps of it. -/
theorem ofJson_toJson (d : Document Float) : ofJson d.toJson = .ok d.brief :=
  ofJson_of_items category_categoryToJson organization_organizationToJson d.categories d.organizations

/-- Writing loses nothing that it has not lost before. -/
theorem toJson_brief (d : Document Float) : d.brief.toJson = d.toJson := by
  have hcategory : ∀ c : Category Float, categoryToJson c.brief = categoryToJson c := by
    rintro ⟨name, color, x, y, r⟩
    cases x <;> cases y <;> cases r <;> rfl
  have horganization : ∀ o : Organization, organizationToJson o.brief = organizationToJson o := by
    intro o
    simp only [organizationToJson, linkField, Organization.brief, nonempty?_nonempty?]
  simp only [toJson, brief, List.map_map, Function.comp_def, hcategory, horganization]

/-! ### Documents without defects -/

/-- A document without defects has no half of a circle. -/
theorem hasPartialGeometry_eq_false {α : Type} [Scalar α] {d : Document α} (h : d.defects = []) :
    ∀ c ∈ d.categories, c.hasPartialGeometry = false := by
  intro c hc
  have hgeometry : d.categories.flatMap geometryDefects = [] := by
    simp only [defects, List.append_eq_nil_iff] at h
    exact h.1.1.2
  have hnone := List.flatMap_eq_nil_iff.mp hgeometry c hc
  by_contra hpartial
  simp [geometryDefects, hpartial] at hnone

/-- A document without defects is read back with every category as it was, and with every organization as
it was but for its empty links. It is the same document if and only if no link is empty. -/
theorem ofJson_toJson_of_defects_eq_nil {d : Document Float} (hvalid : d.defects = []) :
    ∃ d', ofJson d.toJson = .ok d' ∧ d'.categories = d.categories ∧
      d'.organizations = d.organizations.map Organization.brief ∧
      (d' = d ↔ ∀ o ∈ d.organizations, o.url ≠ some "" ∧ o.careers ≠ some "") := by
  have hcategories : d.categories.map Category.brief = d.categories :=
    map_eq_self_iff.mpr fun c hc => Category.brief_eq_self (hasPartialGeometry_eq_false hvalid c hc)
  have horganizations : d.organizations.map Organization.brief = d.organizations ↔
      ∀ o ∈ d.organizations, o.url ≠ some "" ∧ o.careers ≠ some "" :=
    map_eq_self_iff.trans (forall₂_congr fun o _ => Organization.brief_eq_self_iff)
  refine ⟨d.brief, ofJson_toJson d, hcategories, rfl, ?_⟩
  rw [← horganizations]
  constructor
  · intro h
    exact congrArg organizations h
  · intro h
    rw [brief, hcategories, h]

/-- Two categories with their circles, and organizations with links of which one is empty. -/
theorem ofJson_toJson_of_defects_eq_nil_two_circles :
    let d : Document Float :=
      { categories :=
          [⟨"A", "red", some 200, some 200, some 100⟩, ⟨"B", "blue", some 0, some (-0.5), some 100⟩]
        organizations := [⟨"a", ["A", "B"], some "u", none⟩, ⟨"b", [], none, some ""⟩] }
    d.defects = [] ∧
      ∃ d', ofJson d.toJson = .ok d' ∧ d'.categories = d.categories ∧
        d'.organizations = d.organizations.map Organization.brief ∧
        (d' = d ↔ ∀ o ∈ d.organizations, o.url ≠ some "" ∧ o.careers ≠ some "") := by
  intro d
  have hvalid : d.defects = [] := by decide +kernel
  exact ⟨hvalid, ofJson_toJson_of_defects_eq_nil hvalid⟩

/-- A document that is read from JSON and has no defects, and that is read back as another one after it
was written: the empty link of its organization is gone. -/
theorem ofJson_toJson_ne_of_empty_link :
    let v : Json := .obj
      [ ("categories", .arr [.obj [("name", .str "A")]]),
        ("organizations",
          .arr [.obj [("name", .str "o"), ("categories", .arr [.str "A"]), ("url", .str "")]]) ]
    let d : Document Float :=
      { categories := [⟨"A", "#888888", none, none, none⟩]
        organizations := [⟨"o", ["A"], some "", none⟩] }
    ofJson v = .ok d ∧ d.defects = [] ∧ ofJson d.toJson ≠ .ok d := by
  intro v d
  refine ⟨rfl, by decide +kernel, ?_⟩
  intro h
  have hlinks : d.brief = d := Except.ok.inj ((ofJson_toJson d).symm.trans h)
  have hurls := congrArg (fun d => d.organizations.map Organization.url) hlinks
  exact absurd hurls (by decide)

end Document
end VennDiagram
