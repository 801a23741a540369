import VennDiagram.Placement.Record
import VennDiagram.Proofs.Document.RoundTrip

/-!
# `VennDiagram.Proofs.Placement.RoundTrip`: reading a layout that was written

A record of a layout that was written and is read again has the fields it had, with one exception. A score
is left out only if it is null, and is read as null then, so a score or a coordinate of zero comes back. A
link is left out if it is void, and comes back as null: what is left of the record is `brief`
(`LayoutRecord.ofJson_toJson`). Nothing more is lost by writing it again (`LayoutRecord.toJson_brief`).

A link is null or a text, and a text is void if it is empty. So of a record whose links are links, only the
empty ones are replaced (`ofJson_toJson_of_isLink`). The record of a layout is one of these, and it is read
back as the record of the same layout without empty links (`Layout.ofJson_toJson`).
-/

set_option autoImplicit false

namespace VennDiagram

/-! ### What writing keeps -/

namespace Json

/-- Null in place of a void value. -/
def solid (v : Json) : Json := if v.isVoid then .null else v

/-- Null in place of the empty text. -/
def nullIfEmpty : Json → Json
  | .str s => if s = "" then .null else .str s
  | v => v

/-- The value can be a link: it is null or a text. -/
def IsLink (v : Json) : Prop := v = .null ∨ ∃ s, v = .str s

/-- Of a link only an empty one is dropped. -/
theorem IsLink.solid_eq {v : Json} (h : v.IsLink) : v.solid = v.nullIfEmpty := by
  rcases h with rfl | ⟨s, rfl⟩
  · rfl
  · simp only [solid, isVoid, nullIfEmpty, String.isEmpty_iff]

/-- A void value is dropped. -/
theorem solid_of_isVoid {v : Json} (h : v.isVoid = true) : v.solid = .null := if_pos h

/-- Every other value is kept. -/
theorem solid_of_not_isVoid {v : Json} (h : ¬ v.isVoid = true) : v.solid = v := if_neg h

/-- A string that may be missing is a link. -/
theorem isLink_ofOption (s : Option String) : (ofOption .str s).IsLink := by
  cases s with
  | none => exact Or.inl rfl
  | some s => exact Or.inr ⟨s, rfl⟩

/-- Dropping an empty link is dropping it before it is written. -/
theorem nullIfEmpty_ofOption (s : Option String) :
    (ofOption .str s).nullIfEmpty = ofOption .str (nonempty? s) := by
  cases s with
  | none => rfl
  | some s =>
    by_cases hs : s = "" <;> simp [ofOption, nullIfEmpty, nonempty?, Option.filter, hs]

end Json

/-- The organization without void links. -/
def OrganizationRecord.brief (o : OrganizationRecord) : OrganizationRecord :=
  { o with url := o.url.solid, careers := o.careers.solid }

/-- The layout without void links. -/
def LayoutRecord.brief (l : LayoutRecord) : LayoutRecord :=
  { l with organizations := l.organizations.map OrganizationRecord.brief }

/-- The organization, with null for a link that is the empty text. -/
def OrganizationRecord.withoutEmptyLinks (o : OrganizationRecord) : OrganizationRecord :=
  { o with url := o.url.nullIfEmpty, careers := o.careers.nullIfEmpty }

/-- The layout, with null for every link that is the empty text. -/
def LayoutRecord.withoutEmptyLinks (l : LayoutRecord) : LayoutRecord :=
  { l with organizations := l.organizations.map OrganizationRecord.withoutEmptyLinks }

/-- If the links of an organization are links, writing drops the empty ones and nothing else. -/
theorem OrganizationRecord.brief_eq {o : OrganizationRecord} (hurl : o.url.IsLink)
    (hcareers : o.careers.IsLink) : o.brief = o.withoutEmptyLinks := by
  rw [brief, withoutEmptyLinks, hurl.solid_eq, hcareers.solid_eq]

/-- So it is with the links of all organizations. -/
theorem LayoutRecord.brief_eq {l : LayoutRecord}
    (h : ∀ o ∈ l.organizations, o.url.IsLink ∧ o.careers.IsLink) : l.brief = l.withoutEmptyLinks := by
  have horganizations : l.organizations.map OrganizationRecord.brief
      = l.organizations.map OrganizationRecord.withoutEmptyLinks :=
    List.map_congr_left fun o ho => OrganizationRecord.brief_eq (h o ho).1 (h o ho).2
  rw [brief, withoutEmptyLinks, horganizations]

/-! ### Reading what was written -/

/-- A field that is left out has the value that reading puts in its place. -/
theorem presentField_cases (name : String) (v : Json) :
    presentField name v = [] ∧ v = .null ∨ presentField name v = [(name, v)] := by
  cases v with
  | null => exact Or.inl ⟨rfl, rfl⟩
  | _ => exact Or.inr rfl

/-- A field is left out where its value is dropped, and written with its value otherwise. -/
theorem solidField_cases (name : String) (v : Json) :
    solidField name v = [] ∧ v.solid = .null ∨ solidField name v = [(name, v)] ∧ v.solid = v := by
  by_cases hvoid : v.isVoid = true
  · exact Or.inl ⟨if_pos hvoid, Json.solid_of_isVoid hvoid⟩
  · exact Or.inr ⟨if_neg hvoid, Json.solid_of_not_isVoid hvoid⟩

/-- A value that was dropped is left out again. -/
theorem solidField_solid (name : String) (v : Json) : solidField name v.solid = solidField name v := by
  by_cases hvoid : v.isVoid = true
  · rw [Json.solid_of_isVoid hvoid]
    exact (if_pos hvoid).symm
  · rw [Json.solid_of_not_isVoid hvoid]

namespace Record

/-- A circle is read as it was written. -/
theorem circle_toJson (c : CircleRecord) : circle c.toJson = .ok c := rfl

/-- An organization is read as it was written, without what writing drops. -/
theorem organization_toJson (o : OrganizationRecord) : organization o.toJson = .ok o.brief := by
  obtain ⟨name, categories, x, y, score, url, careers⟩ := o
  rw [OrganizationRecord.toJson, OrganizationRecord.brief]
  -- Every combination of fields that are there and fields that are not is looked up by itself.
  rcases presentField_cases "score" score with ⟨hscore, rfl⟩ | hscore <;>
  rcases solidField_cases "url" url with ⟨hurl, hsolid⟩ | ⟨hurl, hsolid⟩ <;>
  rcases solidField_cases "careers" careers with ⟨hcareers, hsolid'⟩ | ⟨hcareers, hsolid'⟩ <;>
  simp only [hscore, hurl, hcareers, hsolid, hsolid'] <;>
  rfl

end Record

namespace LayoutRecord

/-- A record is read back as what writing keeps of it. -/
theorem ofJson_toJson (l : LayoutRecord) : ofJson l.toJson = .ok l.brief := by
  have hcircles : (l.circles.map CircleRecord.toJson).mapM Record.circle = .ok l.circles := by
    rw [mapM_map_eq_ok fun c _ => Record.circle_toJson c, List.map_id']
  have horganizations : (l.organizations.map OrganizationRecord.toJson).mapM Record.organization
      = .ok (l.organizations.map OrganizationRecord.brief) :=
    mapM_map_eq_ok fun o _ => Record.organization_toJson o
  show ((l.circles.map CircleRecord.toJson).mapM Record.circle >>= fun circles =>
    (l.organizations.map OrganizationRecord.toJson).mapM Record.organization >>= fun organizations =>
      Except.ok (LayoutRecord.mk circles organizations l.method l.statistics)) = _
  rw [hcircles, bind_ok, horganizations, bind_ok]
  rfl

/-- Writing loses nothing that it has not lost before. -/
theorem toJson_brief (l : LayoutRecord) : l.brief.toJson = l.toJson := by
  have horganization : ∀ o : OrganizationRecord, o.brief.toJson = o.toJson := fun o => by
    simp only [OrganizationRecord.toJson, OrganizationRecord.brief, solidField_solid]
  simp only [toJson, brief, List.map_map, Function.comp_def, horganization]

/-- Links do not show in the names that are not placed. -/
theorem unplaced_withoutEmptyLinks (l : LayoutRecord) : l.withoutEmptyLinks.unplaced = l.unplaced := by
  simp only [unplaced, withoutEmptyLinks, List.filter_map, List.map_map]
  rfl

/-- A layout whose links are null or texts is read back as it was after it was written, but for links that
are the empty text: these are null then. In particular it has the method, the statistics and the circles
with their labels that it had; its organizations have the positions and scores that they had, the same
ones are placed, and the same names are listed as not placed. Written again it is the same JSON value. -/
theorem ofJson_toJson_of_isLink (l : LayoutRecord)
    (hlinks : ∀ o ∈ l.organizations, o.url.IsLink ∧ o.careers.IsLink) :
    ∃ l', ofJson l.toJson = .ok l' ∧ l' = l.withoutEmptyLinks ∧ l'.toJson = l.toJson ∧
      l'.method = l.method ∧ l'.statistics = l.statistics ∧ l'.circles = l.circles ∧
      (l'.organizations.map fun o => (o.x, o.y, o.score))
        = (l.organizations.map fun o => (o.x, o.y, o.score)) ∧
      l'.organizations.map OrganizationRecord.placed = l.organizations.map OrganizationRecord.placed ∧
      l'.unplaced = l.unplaced := by
  have hbrief := brief_eq hlinks
  refine ⟨l.withoutEmptyLinks, ?_, rfl, ?_, rfl, rfl, rfl, ?_, ?_, unplaced_withoutEmptyLinks l⟩
  · rw [← hbrief]
    exact ofJson_toJson l
  · rw [← hbrief]
    exact toJson_brief l
  · exact List.map_map
  · exact List.map_map

/-- An organization in the origin with a score of zero and an empty link, and one that is not placed. -/
theorem ofJson_toJson_of_isLink_origin :
    let o : OrganizationRecord :=
      { name := .str "a", categories := [.str "A"], x := .float 0, y := .float 0, score := .float 0,
        url := .str "", careers := .str "c" }
    let p : OrganizationRecord :=
      { name := .str "b", categories := [], x := .null, y := .null, score := .null, url := .null,
        careers := .null }
    let c : CircleRecord :=
      { index := .int 0, name := .str "A", color := .str "red", x := .float 0, y := .float 0,
        r := .float 100, labelX := .null, labelY := .null, labelAngle := .null }
    let l : LayoutRecord :=
      { circles := [c], organizations := [o, p], method := .str "sat",
        statistics := [("variables", .int 1)] }
    (∀ o ∈ l.organizations, o.url.IsLink ∧ o.careers.IsLink) ∧
      ofJson l.toJson = .ok { l with organizations := [{ o with url := .null }, p] } ∧
      l.unplaced = [.str "b"] := by
  intro o p c l
  have hlinks : ∀ o ∈ l.organizations, o.url.IsLink ∧ o.careers.IsLink := by
    simp [l, o, p, Json.IsLink]
  obtain ⟨l', hl', rfl, -⟩ := ofJson_toJson_of_isLink l hlinks
  exact ⟨hlinks, hl', rfl⟩

end LayoutRecord

/-! ### Layouts -/

/-- The layout without empty links. -/
def Layout.brief {α : Type} (l : Layout α) : Layout α :=
  { l with organizations := l.organizations.map fun o => { o with organization := o.organization.brief } }

/-- The links of a layout are strings or missing. -/
theorem Layout.isLink_toRecord (l : Layout Float) :
    ∀ o ∈ l.toRecord.organizations, o.url.IsLink ∧ o.careers.IsLink := by
  intro o ho
  obtain ⟨p, -, rfl⟩ := List.mem_map.mp ho
  exact ⟨Json.isLink_ofOption _, Json.isLink_ofOption _⟩

/-- Writing a layout and writing its record drop the same links. -/
theorem Layout.toRecord_brief (l : Layout Float) : l.brief.toRecord = l.toRecord.withoutEmptyLinks := by
  have horganization : ∀ o : PlacedOrganization Float,
      PlacedOrganization.toRecord { o with organization := o.organization.brief }
        = o.toRecord.withoutEmptyLinks := fun o => by
    simp only [PlacedOrganization.toRecord, OrganizationRecord.withoutEmptyLinks, Organization.brief,
      Json.nullIfEmpty_ofOption]
  simp only [toRecord, brief, LayoutRecord.withoutEmptyLinks, List.map_map, Function.comp_def,
    horganization]

/-- A layout is read back as the record of itself without empty links. -/
theorem Layout.ofJson_toJson (l : Layout Float) :
    LayoutRecord.ofJson l.toJson = .ok l.brief.toRecord := by
  rw [toJson, LayoutRecord.ofJson_toJson, LayoutRecord.brief_eq l.isLink_toRecord, toRecord_brief]

end VennDiagram
