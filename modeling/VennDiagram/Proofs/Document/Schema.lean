import VennDiagram.Document.Reader
import VennDiagram.Proofs.Json.Display
import VennDiagram.Proofs.Number.Integers
import VennDiagram.Proofs.Steps

/-!
# `VennDiagram.Proofs.Document.Schema`: which JSON values are documents

A document is an object with a list of categories and perhaps a list of organizations. `IsDocument` says
which fields these have and of which types, and `Reads` what they are read as.

Whatever is read is the value field by field (`reads_of_ofJson`). Each check of a field can fail for one
reason only, that the field is not of the type asked for, and a check of a number for another one, that the
number is an integer beyond the doubles. So a value is read if and only if it is a document and no
coordinate is such an integer.

An error about a field shows the field, which is a part of the value. So every other error of a value that
can be shown is one that is reported (`failsOnly_ofJson`), and only a value that cannot be shown leaves an
error without a message (`ofJson_accepts_schema`).
-/

set_option autoImplicit false

namespace VennDiagram

namespace Json

/-- A string, or null. -/
def IsOptionalString : Json → Prop
  | .null | .str _ => True
  | _ => False

/-- A number, or null. -/
def IsOptionalNumber : Json → Prop
  | .null | .int _ | .float _ => True
  | _ => False

end Json

namespace Document

/-! ### What a document is made of -/

/-- The names of the coordinates of a category. -/
def coordinates : List String := ["x", "y", "r"]

/-- The names of the links of an organization. -/
def links : List String := ["url", "careers"]

/-- The fields of a category, of the types they must have. -/
structure CategoryFields (fs : List (String × Json)) : Prop where
  name : ∃ s, Json.field? fs "name" = some (.str s)
  color : ∀ v, Json.field? fs "color" = some v → ∃ s, v = .str s
  coordinate : ∀ key ∈ coordinates, ∀ v, Json.field? fs key = some v → v.IsOptionalNumber

/-- The fields of an organization, of the types they must have. -/
structure OrganizationFields (fs : List (String × Json)) : Prop where
  name : ∃ s, Json.field? fs "name" = some (.str s)
  categories : ∀ v, Json.field? fs "categories" = some v → ∃ names, v = Json.strings names
  link : ∀ key ∈ links, ∀ v, Json.field? fs key = some v → v.IsOptionalString

/-- An object with the fields of a category. -/
def IsCategory (v : Json) : Prop := ∃ fs, v = .obj fs ∧ CategoryFields fs

/-- An object with the fields of an organization. -/
def IsOrganization (v : Json) : Prop := ∃ fs, v = .obj fs ∧ OrganizationFields fs

/-- The fields of a document, of the types they must have. -/
structure DocumentFields (fs : List (String × Json)) : Prop where
  categories : ∃ cs, Json.field? fs "categories" = some (.arr cs) ∧ ∀ c ∈ cs, IsCategory c
  organizations : ∀ v, Json.field? fs "organizations" = some v →
    ∃ os, v = .arr os ∧ ∀ o ∈ os, IsOrganization o

/-- An object with the fields of a document. -/
def IsDocument (v : Json) : Prop := ∃ fs, v = .obj fs ∧ DocumentFields fs

/-- The integer is a coordinate of the category. -/
def CategoryHolds (v : Json) (i : Int) : Prop :=
  ∃ fs, v = .obj fs ∧ ∃ key ∈ coordinates, Json.field? fs key = some (.int i)

/-- The integer is a coordinate of a category of the document. -/
def Holds (v : Json) (i : Int) : Prop :=
  ∃ fs, v = .obj fs ∧ ∃ cs, Json.field? fs "categories" = some (.arr cs) ∧ ∃ c ∈ cs, CategoryHolds c i

/-- No coordinate is an integer beyond the doubles. -/
def InRange (v : Json) : Prop := ∀ i, Holds v i → i.natAbs < Binary64.integerLimit

/-! ### What a document is read as -/

/-- What a coordinate is read as. -/
inductive ReadsNumber : Json → Option Float → Prop
  | null : ReadsNumber .null none
  | int {i : Int} {x : Float} (h : Binary64.ofInt? i = some x) : ReadsNumber (.int i) (some x)
  | float (x : Float) : ReadsNumber (.float x) (some x)

/-- What the fields of a category are read as. -/
structure ReadsCategory (fs : List (String × Json)) (c : Category Float) : Prop where
  name : Json.field? fs "name" = some (.str c.name)
  color : (Json.field? fs "color").getD (.str Category.defaultColor) = .str c.color
  x : ReadsNumber ((Json.field? fs "x").getD .null) c.x
  y : ReadsNumber ((Json.field? fs "y").getD .null) c.y
  r : ReadsNumber ((Json.field? fs "r").getD .null) c.r

/-- What the fields of an organization are read as. -/
structure ReadsOrganization (fs : List (String × Json)) (o : Organization) : Prop where
  name : Json.field? fs "name" = some (.str o.name)
  categories : (Json.field? fs "categories").getD (.arr []) = Json.strings o.categories
  url : (Json.field? fs "url").getD .null = Json.ofOption .str o.url
  careers : (Json.field? fs "careers").getD .null = Json.ofOption .str o.careers

/-- What a JSON value is read as: the same categories and organizations in the same order. -/
def Reads (v : Json) (d : Document Float) : Prop :=
  ∃ fs cs os, v = .obj fs ∧ Json.field? fs "categories" = some (.arr cs) ∧
    (Json.field? fs "organizations").getD (.arr []) = .arr os ∧
    List.Forall₂ (fun v c => ∃ fs, v = .obj fs ∧ ReadsCategory fs c) cs d.categories ∧
    List.Forall₂ (fun v o => ∃ fs, v = .obj fs ∧ ReadsOrganization fs o) os d.organizations

section
variable {place : Place} {v : Json} {fs : List (String × Json)} {key : String}

/-! ### Fields that are read -/

/-- A required field is read exactly if it is there. -/
theorem required_eq_ok_iff : required fs key = .ok v ↔ Json.field? fs key = some v := by
  rw [required]
  cases Json.field? fs key <;> simp

/-- A list is read exactly where there is one. -/
theorem items_eq_ok_iff {vs : List Json} : items place v = .ok vs ↔ v = .arr vs := by
  cases v <;> simp [items]

/-- A string is read exactly where there is one, and as it is. -/
theorem string_eq_ok_iff {s : String} : string place v = .ok s ↔ v = .str s := by
  cases v <;> simp [string]

/-- An optional string is read exactly where there is a string or `null`. -/
theorem optionalString_eq_ok_iff {s : Option String} :
    optionalString place v = .ok s ↔ v = Json.ofOption .str s := by
  cases v <;> cases s <;> simp [optionalString, string, Json.ofOption, Except.map]

/-- What is read as a number is one of the three values that can be. -/
theorem readsNumber_of_optionalNumber {x : Option Float} (h : optionalNumber place v = .ok x) :
    ReadsNumber v x := by
  cases v with
  | null =>
    obtain rfl := Except.ok.inj h
    exact .null
  | float y =>
    obtain rfl := Except.ok.inj h
    exact .float y
  | int i =>
    rw [optionalNumber] at h
    cases hi : Binary64.ofInt? i with
    | none =>
      rw [hi] at h
      exact nomatch h
    | some y =>
      rw [hi] at h
      obtain rfl := Except.ok.inj h
      exact .int hi
  | _ => exact nomatch h

/-- What is read as a category is an object, and each field is read from its own. -/
theorem readsCategory_of_category {i : Nat} {c : Category Float} (h : category v i = .ok c) :
    ∃ fs, v = .obj fs ∧ ReadsCategory fs c := by
  cases v with
  | obj fs =>
    obtain ⟨_, hfields, h⟩ := bind_eq_ok_iff.mp h
    obtain rfl := Except.ok.inj hfields
    obtain ⟨_, hrequired, h⟩ := bind_eq_ok_iff.mp h
    obtain ⟨name, hname, h⟩ := bind_eq_ok_iff.mp h
    obtain ⟨color, hcolor, h⟩ := bind_eq_ok_iff.mp h
    obtain ⟨x, hx, h⟩ := bind_eq_ok_iff.mp h
    obtain ⟨y, hy, h⟩ := bind_eq_ok_iff.mp h
    obtain ⟨r, hr, h⟩ := bind_eq_ok_iff.mp h
    obtain rfl := Except.ok.inj h
    obtain rfl := string_eq_ok_iff.mp hname
    exact ⟨fs, rfl,
      { name := required_eq_ok_iff.mp hrequired
        color := string_eq_ok_iff.mp hcolor
        x := readsNumber_of_optionalNumber hx
        y := readsNumber_of_optionalNumber hy
        r := readsNumber_of_optionalNumber hr }⟩
  | _ => exact nomatch h

/-- Items that are all strings. -/
theorem eq_strings_of_mapM {ms : List Json} {i : Nat} {names : List String}
    (h : (ms.zipIdx.mapM fun (m, j) => string (.membership i j) m) = .ok names) :
    Json.arr ms = Json.strings names := by
  have hstrings : List.Forall₂ (fun m s => m = Json.str s) ms names :=
    forall₂_of_mapM_zipIdx_eq_ok (fun m j => string (.membership i j) m) (fun _ _ _ => string_eq_ok_iff.mp) h
  have hitems := List.forall₂_map_right_iff.mpr hstrings
  rw [List.forall₂_eq_eq_eq] at hitems
  rw [hitems, Json.strings]

/-- So it is with an organization. -/
theorem readsOrganization_of_organization {i : Nat} {o : Organization} (h : organization v i = .ok o) :
    ∃ fs, v = .obj fs ∧ ReadsOrganization fs o := by
  cases v with
  | obj fs =>
    obtain ⟨_, hfields, h⟩ := bind_eq_ok_iff.mp h
    obtain rfl := Except.ok.inj hfields
    obtain ⟨members, hitems, h⟩ := bind_eq_ok_iff.mp h
    obtain ⟨_, hrequired, h⟩ := bind_eq_ok_iff.mp h
    obtain ⟨name, hname, h⟩ := bind_eq_ok_iff.mp h
    obtain ⟨categories, hcategories, h⟩ := bind_eq_ok_iff.mp h
    obtain ⟨url, hurl, h⟩ := bind_eq_ok_iff.mp h
    obtain ⟨careers, hcareers, h⟩ := bind_eq_ok_iff.mp h
    obtain rfl := Except.ok.inj h
    obtain rfl := string_eq_ok_iff.mp hname
    exact ⟨fs, rfl,
      { name := required_eq_ok_iff.mp hrequired
        categories := (items_eq_ok_iff.mp hitems).trans (eq_strings_of_mapM hcategories)
        url := optionalString_eq_ok_iff.mp hurl
        careers := optionalString_eq_ok_iff.mp hcareers }⟩
  | _ => exact nomatch h

/-- Whatever is read is the value, field by field. -/
theorem reads_of_ofJson {d : Document Float} (h : ofJson v = .ok d) : Reads v d := by
  cases v with
  | obj fs =>
    obtain ⟨_, hrequired, h⟩ := bind_eq_ok_iff.mp h
    obtain ⟨cs, hcs, h⟩ := bind_eq_ok_iff.mp h
    obtain ⟨categories, hcategories, h⟩ := bind_eq_ok_iff.mp h
    obtain ⟨os, hos, h⟩ := bind_eq_ok_iff.mp h
    obtain ⟨organizations, horganizations, h⟩ := bind_eq_ok_iff.mp h
    obtain rfl := Except.ok.inj h
    obtain rfl := items_eq_ok_iff.mp hcs
    refine ⟨fs, cs, os, rfl, required_eq_ok_iff.mp hrequired, items_eq_ok_iff.mp hos, ?_, ?_⟩
    · exact forall₂_of_mapM_zipIdx_eq_ok category (fun _ _ _ => readsCategory_of_category) hcategories
    · exact forall₂_of_mapM_zipIdx_eq_ok organization (fun _ _ _ => readsOrganization_of_organization)
        horganizations
  | _ => exact nomatch h

/-! ### What is read is a document -/

/-- A string that may be missing is written as one. -/
theorem isOptionalString_ofOption (s : Option String) : (Json.ofOption .str s).IsOptionalString := by
  cases s <;> trivial

/-- Whatever a number is read from has the type of one. -/
theorem ReadsNumber.isOptionalNumber {x : Option Float} (h : ReadsNumber v x) : v.IsOptionalNumber := by
  cases h <;> trivial

/-- An integer that is read as a number lies in the range of the doubles. -/
theorem ReadsNumber.lt_limit {x : Option Float} {i : Int} (h : ReadsNumber (.int i) x) :
    i.natAbs < Binary64.integerLimit := by
  cases h with
  | int h => exact Binary64.lt_integerLimit_of_ofInt? h

/-- Each coordinate of a category is read as a number. -/
theorem ReadsCategory.number {c : Category Float} (h : ReadsCategory fs c) (hkey : key ∈ coordinates) :
    ∃ x, ReadsNumber ((Json.field? fs key).getD .null) x := by
  simp only [coordinates, List.mem_cons, List.not_mem_nil, or_false] at hkey
  rcases hkey with rfl | rfl | rfl
  · exact ⟨_, h.x⟩
  · exact ⟨_, h.y⟩
  · exact ⟨_, h.r⟩

/-- The fields of a category that is read have their types. -/
theorem ReadsCategory.categoryFields {c : Category Float} (h : ReadsCategory fs c) : CategoryFields fs where
  name := ⟨_, h.name⟩
  color v hv := ⟨_, by simpa only [hv, Option.getD_some] using h.color⟩
  coordinate key hkey v hv := by
    obtain ⟨x, hx⟩ := h.number hkey
    rw [hv] at hx
    exact hx.isOptionalNumber

/-- Each link of an organization that is read has the type of a string, or is missing. -/
theorem ReadsOrganization.optionalString {o : Organization} (h : ReadsOrganization fs o)
    (hkey : key ∈ links) : ((Json.field? fs key).getD .null).IsOptionalString := by
  simp only [links, List.mem_cons, List.not_mem_nil, or_false] at hkey
  rcases hkey with rfl | rfl
  · exact h.url ▸ isOptionalString_ofOption _
  · exact h.careers ▸ isOptionalString_ofOption _

/-- The fields of an organization that is read have their types. -/
theorem ReadsOrganization.organizationFields {o : Organization} (h : ReadsOrganization fs o) :
    OrganizationFields fs where
  name := ⟨_, h.name⟩
  categories v hv := ⟨_, by simpa only [hv, Option.getD_some] using h.categories⟩
  link key hkey v hv := by
    have hv' := h.optionalString hkey
    rwa [hv] at hv'

/-- Whatever is read as a document fits the schema. -/
theorem Reads.isDocument {d : Document Float} (h : Reads v d) : IsDocument v := by
  obtain ⟨fs, cs, os, rfl, hcs, hos, hcategories, horganizations⟩ := h
  refine ⟨fs, rfl, ⟨cs, hcs, fun c hc => ?_⟩, fun w hw => ⟨os, ?_, fun o ho => ?_⟩⟩
  · obtain ⟨_, cfs, hcfs, hreads⟩ := exists_of_forall₂ hcategories c hc
    exact ⟨cfs, hcfs, hreads.categoryFields⟩
  · rwa [hw] at hos
  · obtain ⟨_, ofs, hofs, hreads⟩ := exists_of_forall₂ horganizations o ho
    exact ⟨ofs, hofs, hreads.organizationFields⟩

/-- No number in it is too large. -/
theorem Reads.inRange {d : Document Float} (h : Reads v d) : InRange v := by
  obtain ⟨fs, cs, -, rfl, hcs, -, hcategories, -⟩ := h
  rintro i ⟨fs', heq, cs', hcs', c, hc, cfs, rfl, key, hkey, hi⟩
  obtain rfl := Json.obj.inj heq
  obtain rfl := Json.arr.inj (Option.some.inj (hcs.symm.trans hcs'))
  obtain ⟨_, cfs', heq', hreads⟩ := exists_of_forall₂ hcategories _ hc
  obtain rfl := Json.obj.inj heq'
  obtain ⟨x, hx⟩ := hreads.number hkey
  rw [hi] at hx
  exact hx.lt_limit

/-! ### Why a value is not read -/

variable {p q : Prop}

/-- The fields of a value are read exactly if it is an object. -/
theorem fields_eq_ok_iff : fields place v = .ok fs ↔ v = .obj fs := by
  cases v <;> simp [fields]

/-- Reading fields fails only where there is no object. -/
theorem failsFor_fields (h : (¬ ∃ fs, v = .obj fs) → q) : FailsFor .tooLarge p q (fields place v) := by
  cases v with
  | obj fs => exact .ok fs
  | _ => exact .error ReadError.noConfusion (h fun ⟨_, hv⟩ => nomatch hv)

/-- Reading a list fails only where there is none. -/
theorem failsFor_items (h : (¬ ∃ vs, v = .arr vs) → q) : FailsFor .tooLarge p q (items place v) := by
  cases v with
  | arr vs => exact .ok vs
  | _ => exact .error ReadError.noConfusion (h fun ⟨_, hv⟩ => nomatch hv)

/-- Reading a string fails only where there is none. -/
theorem failsFor_string (h : (¬ ∃ s, v = .str s) → q) : FailsFor .tooLarge p q (string place v) := by
  cases v with
  | str s => exact .ok s
  | _ => exact .error ReadError.noConfusion (h fun ⟨_, hv⟩ => nomatch hv)

/-- Reading an optional string fails only where there is neither a string nor `null`. -/
theorem failsFor_optionalString (h : ¬ v.IsOptionalString → q) :
    FailsFor .tooLarge p q (optionalString place v) := by
  cases v with
  | null => exact .ok none
  | str s => exact .ok (some s)
  | _ => exact .error ReadError.noConfusion (h not_false)

/-- Reading a number fails for an integer beyond the doubles, in a way of its own, or for a value that is
no number. -/
theorem failsFor_optionalNumber (hint : ∀ i, v = .int i → Binary64.integerLimit ≤ i.natAbs → p)
    (h : ¬ v.IsOptionalNumber → q) : FailsFor .tooLarge p q (optionalNumber place v) := by
  cases v with
  | null => exact .ok none
  | float x => exact .ok (some x)
  | int i =>
    rw [optionalNumber]
    cases hi : Binary64.ofInt? i with
    | some x => exact .ok (some x)
    | none => exact .special_error (hint i rfl (Binary64.ofInt?_eq_none_iff.mp hi))
  | _ => exact .error ReadError.noConfusion (h not_false)

/-- A required field fails only where it is missing. -/
theorem failsFor_required (h : Json.field? fs key = none → q) :
    FailsFor .tooLarge p q (required fs key) := by
  rw [required]
  cases hv : Json.field? fs key with
  | some v => exact .ok v
  | none => exact .error ReadError.noConfusion (h hv)

/-- A field has a property that its default has. -/
theorem optional_of {P : Json → Prop} {absent : Json} (h : ∀ v, Json.field? fs key = some v → P v)
    (habsent : P absent) : P (optional fs key absent) := by
  rw [optional]
  cases hv : Json.field? fs key with
  | some v => exact h v hv
  | none => exact habsent

/-- A field whose default is `null` is an integer only if it is there. -/
theorem optional_null_eq_int {i : Int} (h : optional fs key .null = .int i) :
    Json.field? fs key = some (.int i) := by
  rw [optional] at h
  cases hv : Json.field? fs key with
  | some v =>
    rw [hv] at h
    exact congrArg some h
  | none =>
    rw [hv] at h
    exact nomatch h

/-- A string that must be there. -/
theorem failsFor_requiredString {β : Type} {f : String → Except ReadError β}
    (h : (¬ ∃ s, Json.field? fs key = some (.str s)) → q) (hf : ∀ s, FailsFor .tooLarge p q (f s)) :
    FailsFor .tooLarge p q (required fs key >>= fun v => string place v >>= f) := by
  refine .bind (failsFor_required fun hnone => h ?_) fun v hv =>
    .bind (failsFor_string fun hnot => h ?_) fun s _ => hf s
  · rintro ⟨s, hs⟩
    exact nomatch hnone.symm.trans hs
  · rintro ⟨s, hs⟩
    exact hnot ⟨s, Option.some.inj ((required_eq_ok_iff.mp hv).symm.trans hs)⟩

/-- A category is not read if it is none, or if a coordinate is too large. -/
theorem failsFor_category (v : Json) (i : Nat) :
    FailsFor .tooLarge (∃ n, CategoryHolds v n ∧ Binary64.integerLimit ≤ n.natAbs) (¬ IsCategory v)
      (category v i) := by
  rw [category]
  refine .bind (failsFor_fields fun hnot ⟨fs, hv, _⟩ => hnot ⟨fs, hv⟩) fun fs hfs => ?_
  obtain rfl := fields_eq_ok_iff.mp hfs
  have hfields : IsCategory (.obj fs) → CategoryFields fs := fun ⟨_, heq, h⟩ => Json.obj.inj heq ▸ h
  -- The three coordinates differ in their key only.
  have hnumber : ∀ key ∈ coordinates, ∀ place, FailsFor .tooLarge
      (∃ n, CategoryHolds (.obj fs) n ∧ Binary64.integerLimit ≤ n.natAbs) (¬ IsCategory (.obj fs))
      (optionalNumber place (optional fs key .null)) := fun key hkey place =>
    failsFor_optionalNumber (fun n hn hlarge => ⟨n, ⟨fs, rfl, key, hkey, optional_null_eq_int hn⟩, hlarge⟩)
      fun hnot h => hnot (optional_of ((hfields h).coordinate key hkey) trivial)
  refine failsFor_requiredString (fun hnot h => hnot (hfields h).name) fun name => ?_
  refine .bind (failsFor_string fun hnot h => hnot (optional_of (hfields h).color ⟨_, rfl⟩)) fun color _ => ?_
  refine .bind (hnumber "x" (by decide) _) fun x _ => ?_
  refine .bind (hnumber "y" (by decide) _) fun y _ => ?_
  exact .bind (hnumber "r" (by decide) _) fun r _ => .ok _

/-- An organization is not read if it is none. -/
theorem failsFor_organization (v : Json) (i : Nat) :
    FailsFor .tooLarge False (¬ IsOrganization v) (organization v i) := by
  rw [organization]
  refine .bind (failsFor_fields fun hnot ⟨fs, hv, _⟩ => hnot ⟨fs, hv⟩) fun fs hfs => ?_
  obtain rfl := fields_eq_ok_iff.mp hfs
  have hfields : IsOrganization (.obj fs) → OrganizationFields fs := fun ⟨_, heq, h⟩ =>
    Json.obj.inj heq ▸ h
  have hnames : IsOrganization (.obj fs) →
      ∃ names, optional fs "categories" (.arr []) = Json.strings names := fun h =>
    optional_of (hfields h).categories ⟨[], rfl⟩
  have hlink : ∀ key ∈ links, ∀ place, FailsFor .tooLarge False (¬ IsOrganization (.obj fs))
      (optionalString place (optional fs key .null)) := fun key hkey place =>
    failsFor_optionalString fun hnot h => hnot (optional_of ((hfields h).link key hkey) trivial)
  refine .bind (failsFor_items fun hnot h => hnot ((hnames h).imp' _ fun _ => id)) fun members hmembers => ?_
  refine failsFor_requiredString (fun hnot h => hnot (hfields h).name) fun name => ?_
  refine .bind (.mapM fun (m, j) hm => failsFor_string fun hnot h => hnot ?_) fun categories _ => ?_
  · -- The items are those of a list of strings.
    obtain ⟨names, hnames⟩ := hnames h
    obtain rfl : members = names.map .str := Json.arr.inj ((items_eq_ok_iff.mp hmembers).symm.trans hnames)
    obtain ⟨s, -, hs⟩ := List.mem_map.mp (List.fst_mem_of_mem_zipIdx hm)
    exact ⟨s, hs.symm⟩
  refine .bind (hlink "url" (by decide) _) fun url _ => ?_
  exact .bind (hlink "careers" (by decide) _) fun careers _ => .ok _

/-- A value is not read if it is no document, or if a coordinate is too large. -/
theorem failsFor_ofJson (v : Json) : FailsFor .tooLarge (¬ InRange v) (¬ IsDocument v) (ofJson v) := by
  cases v with
  | obj fs =>
    rw [ofJson]
    have hfields : IsDocument (.obj fs) → DocumentFields fs := fun ⟨_, heq, h⟩ => Json.obj.inj heq ▸ h
    -- One step of the reader after the other: each either fails for a reason of its own, that the
    -- document is not in the schema, or hands on what the next one needs.
    refine .bind (failsFor_required fun hnone h => ?_) fun w hw => ?_
    · obtain ⟨cs, hcs, -⟩ := (hfields h).categories
      exact nomatch hnone.symm.trans hcs
    have hcategories := required_eq_ok_iff.mp hw
    refine .bind (failsFor_items fun hnot h => hnot ?_) fun cs hcs => ?_
    · obtain ⟨cs, hcs, -⟩ := (hfields h).categories
      exact ⟨cs, Option.some.inj (hcategories.symm.trans hcs)⟩
    obtain rfl := items_eq_ok_iff.mp hcs
    refine .bind (.mapM fun (c, i) hc => (failsFor_category c i).mono ?_ ?_) fun categories _ => ?_
    · rintro ⟨n, hn, hlarge⟩ hrange
      have hholds : Holds (.obj fs) n := ⟨fs, rfl, cs, hcategories, c, List.fst_mem_of_mem_zipIdx hc, hn⟩
      exact Nat.not_lt.mpr hlarge (hrange n hholds)
    · intro hnot h
      obtain ⟨cs', hcs', hall⟩ := (hfields h).categories
      obtain rfl := Json.arr.inj (Option.some.inj (hcategories.symm.trans hcs'))
      exact hnot (hall c (List.fst_mem_of_mem_zipIdx hc))
    have horganizations : IsDocument (.obj fs) →
        ∃ os, optional fs "organizations" (.arr []) = .arr os ∧ ∀ o ∈ os, IsOrganization o := fun h =>
      optional_of (hfields h).organizations ⟨[], rfl, List.forall_mem_nil _⟩
    refine .bind (failsFor_items fun hnot h => hnot ?_) fun os hos => ?_
    · exact (horganizations h).imp fun _ => And.left
    refine .bind (.mapM fun (o, i) ho => (failsFor_organization o i).mono False.elim ?_) fun _ _ => .ok _
    intro hnot h
    obtain ⟨os', hos', hall⟩ := horganizations h
    obtain rfl := Json.arr.inj ((items_eq_ok_iff.mp hos).symm.trans hos')
    exact hnot (hall o (List.fst_mem_of_mem_zipIdx ho))
  | _ => exact .error ReadError.noConfusion fun ⟨_, h, _⟩ => nomatch h

end

/-! ### The schema -/

/-- A document is read exactly from a value that fits the schema and has no number that is too large. -/
theorem exists_ofJson_iff {v : Json} : (∃ d, ofJson v = .ok d) ↔ IsDocument v ∧ InRange v := by
  constructor
  · rintro ⟨d, h⟩
    exact ⟨(reads_of_ofJson h).isDocument, (reads_of_ofJson h).inRange⟩
  · rintro ⟨hdocument, hrange⟩
    exact (failsFor_ofJson v).exists_ok (not_not.mpr hrange) (not_not.mpr hdocument)

/-- A value that fits the schema and is not read has a number that is too large. -/
theorem ofJson_eq_tooLarge {v : Json} (hdocument : IsDocument v) (hrange : ¬ InRange v) :
    ofJson v = .error .tooLarge := by
  cases h : ofJson v with
  | ok d => exact absurd (reads_of_ofJson h).inRange hrange
  | error e => rw [(failsFor_ofJson v).eq_special (not_not.mpr hdocument) h]

/-! ### Which errors are reported -/

section
variable {depth : Nat} {place : Place} {v : Json} {fs : List (String × Json)} {key : String}

/-- The value that the error shows, if it shows one, can be shown. -/
def ReadError.Shows (depth : Nat) : ReadError → Prop
  | .unexpected _ _ v => v.Showable depth
  | _ => True

/-- Reading fields reports a value that can be shown where the whole value can. -/
theorem failsOnly_fields (h : v.Showable depth) : FailsOnly (ReadError.Shows depth) (fields place v) := by
  cases v with
  | obj fs => exact .ok fs
  | _ => exact .error h

/-- So does reading a list. -/
theorem failsOnly_items (h : v.Showable depth) : FailsOnly (ReadError.Shows depth) (items place v) := by
  cases v with
  | arr vs => exact .ok vs
  | _ => exact .error h

/-- So does reading a string. -/
theorem failsOnly_string (h : v.Showable depth) : FailsOnly (ReadError.Shows depth) (string place v) := by
  cases v with
  | str s => exact .ok s
  | _ => exact .error h

/-- So does reading an optional string. -/
theorem failsOnly_optionalString (h : v.Showable depth) :
    FailsOnly (ReadError.Shows depth) (optionalString place v) := by
  cases v with
  | null => exact .ok none
  | str s => exact .ok (some s)
  | _ => exact .error h

/-- So does reading a number. -/
theorem failsOnly_optionalNumber (h : v.Showable depth) :
    FailsOnly (ReadError.Shows depth) (optionalNumber place v) := by
  cases v with
  | null => exact .ok none
  | float x => exact .ok (some x)
  | int i =>
    rw [optionalNumber]
    cases Binary64.ofInt? i with
    | some x => exact .ok (some x)
    | none => exact .error trivial
  | _ => exact .error h

/-- A missing field is reported without a value. -/
theorem failsOnly_required : FailsOnly (ReadError.Shows depth) (required fs key) := by
  rw [required]
  cases Json.field? fs key with
  | some v => exact .ok v
  | none => exact .error trivial

/-- A field that must be there can be shown where the object can. -/
theorem showable_of_required (h : (Json.obj fs).Showable depth) (hv : required fs key = .ok v) :
    v.Showable depth :=
  h.of_field? (required_eq_ok_iff.mp hv)

/-- A field can be shown where the object and its default can. -/
theorem showable_optional {absent : Json} (h : (Json.obj fs).Showable depth)
    (habsent : absent.Showable depth) : (optional fs key absent).Showable depth :=
  optional_of (fun _ hv => h.of_field? hv) habsent

/-- Reading a category reports one of its fields, which can be shown where the category can. -/
theorem failsOnly_category (h : v.Showable depth) (i : Nat) :
    FailsOnly (ReadError.Shows depth) (category v i) := by
  rw [category]
  refine .bind (failsOnly_fields h) fun fs hfs => ?_
  obtain rfl := fields_eq_ok_iff.mp hfs
  have hnumber : ∀ key place,
      FailsOnly (ReadError.Shows depth) (optionalNumber place (optional fs key .null)) :=
    fun _ _ => failsOnly_optionalNumber (showable_optional h (.null depth))
  refine .bind failsOnly_required fun name hname => ?_
  refine .bind (failsOnly_string (showable_of_required h hname)) fun name _ => ?_
  refine .bind (failsOnly_string (showable_optional h (.str depth _))) fun color _ => ?_
  refine .bind (hnumber "x" _) fun x _ => ?_
  refine .bind (hnumber "y" _) fun y _ => ?_
  exact .bind (hnumber "r" _) fun r _ => .ok _

/-- Reading an organization reports one of its fields or names, one step deeper. -/
theorem failsOnly_organization (h : v.Showable (depth + 1)) (i : Nat) :
    FailsOnly (ReadError.Shows (depth + 1)) (organization v i) := by
  rw [organization]
  refine .bind (failsOnly_fields h) fun fs hfs => ?_
  obtain rfl := fields_eq_ok_iff.mp hfs
  -- `url` and `careers` are read alike; the names are one step deeper than the list that holds them.
  have hlink : ∀ key place,
      FailsOnly (ReadError.Shows (depth + 1)) (optionalString place (optional fs key .null)) :=
    fun _ _ => failsOnly_optionalString (showable_optional h (.null _))
  have hmembers : (optional fs "categories" (.arr [])).Showable (depth + 1) :=
    showable_optional h (.arr (List.forall_mem_nil _))
  refine .bind (failsOnly_items hmembers) fun members heq => ?_
  rw [items_eq_ok_iff.mp heq] at hmembers
  refine .bind failsOnly_required fun name hname => ?_
  refine .bind (failsOnly_string (showable_of_required h hname)) fun name _ => ?_
  refine .bind (.mapM fun (m, j) hm => ?_) fun categories _ => ?_
  · exact failsOnly_string (hmembers.of_mem (List.fst_mem_of_mem_zipIdx hm))
  refine .bind (hlink "url" _) fun url _ => ?_
  exact .bind (hlink "careers" _) fun careers _ => .ok _

/-- The errors of a value that can be shown can be shown. -/
theorem failsOnly_ofJson (h : v.Showable depth) : FailsOnly (ReadError.Shows depth) (ofJson v) := by
  cases h with
  | obj hfields =>
    rename_i depth fs
    have h : (Json.obj fs).Showable (depth + 1) := .obj hfields
    rw [ofJson]
    refine .bind failsOnly_required fun w hw => ?_
    have hcategories := showable_of_required h hw
    refine .bind (failsOnly_items hcategories) fun cs hcs => ?_
    rw [items_eq_ok_iff.mp hcs] at hcategories
    refine .bind (.mapM fun (c, i) hc => ?_) fun categories _ => ?_
    · exact failsOnly_category (hcategories.of_mem (List.fst_mem_of_mem_zipIdx hc)) i
    have horganizations : (optional fs "organizations" (.arr [])).Showable (depth + 1) :=
      showable_optional h (.arr (List.forall_mem_nil _))
    refine .bind (failsOnly_items horganizations) fun os hos => ?_
    rw [items_eq_ok_iff.mp hos] at horganizations
    refine .bind (.mapM fun (o, i) ho => ?_) fun organizations _ => .ok _
    exact failsOnly_organization (horganizations.of_mem (List.fst_mem_of_mem_zipIdx ho)) i
  | _ => exact .error trivial

end

section
variable [Json.Limits]

/-- The error is reported with its message, whatever the path. -/
def ReadError.IsReported (e : ReadError) : Prop :=
  ∃ message, e.message = .ok message ∧ ∀ path, report path (.unfit e) = .ok message

/-- The error is about a part of the document that cannot be shown, and so it is not reported. -/
def ReadError.IsUnshown (e : ReadError) : Prop :=
  ∃ place kind w failure, e = .unexpected place kind w ∧ Json.IsDisplayFailure failure ∧
    w.display = .error failure ∧ ∀ path, report path (.unfit e) = .error failure

/-- An error is reported, unless it is an integer beyond the doubles, or about a part of a value that
cannot be shown. -/
theorem report_of_ofJson {v : Json} {e : ReadError} (h : ofJson v = .error e) :
    e.IsReported ∨ e = .tooLarge ∧ ¬ InRange v ∨ e.IsUnshown ∧ ¬ v.Showable Json.Limits.depth := by
  cases e with
  | notAnObject => exact Or.inl ⟨_, rfl, fun _ => rfl⟩
  | missing name => exact Or.inl ⟨_, rfl, fun _ => rfl⟩
  | tooLarge =>
    have hlarge := failsFor_ofJson v _ h
    exact Or.inr (Or.inl (hlarge.resolve_right fun hother => hother.1 rfl))
  | unexpected place kind w =>
    cases hw : w.display with
    | ok shown =>
      have hmessage : (ReadError.unexpected place kind w).message =
          .ok (place.text ++ ": expected " ++ kind.text ++ ", got " ++ shown) := by
        rw [ReadError.message, hw, Except.map]
      exact Or.inl ⟨_, hmessage, fun _ => hmessage⟩
    | error failure =>
      have hmessage : (ReadError.unexpected place kind w).message = .error failure := by
        rw [ReadError.message, hw, Except.map]
      -- The value that is not shown is part of the whole, which could not be shown either.
      refine Or.inr (Or.inr ⟨⟨place, kind, w, failure, rfl, ?_, hw, fun _ => hmessage⟩, fun hv => ?_⟩)
      · exact Json.failsOnly_displayWithin w _ failure hw
      · obtain ⟨shown, hshown⟩ := Json.exists_display_iff.mpr (failsOnly_ofJson hv _ h)
        exact nomatch hw.symm.trans hshown

/-- A value is read if and only if it is a document and no coordinate is an integer beyond the doubles, and
then as what it says. Every error is reported, unless there is such an integer, or the error is about a part
that cannot be shown: an integer in it is too long to be written, or its containers lie too deep. Nothing
but an integer beyond the doubles keeps a document from being read. -/
theorem ofJson_accepts_schema (v : Json) :
    ((∃ d, ofJson v = .ok d) ↔ IsDocument v ∧ InRange v) ∧
    (∀ d, ofJson v = .ok d → Reads v d) ∧
    (∀ e, ofJson v = .error e →
      e.IsReported ∨ e = .tooLarge ∧ ¬ InRange v ∨ e.IsUnshown ∧ ¬ v.Showable Json.Limits.depth) ∧
    (IsDocument v → ¬ InRange v → ofJson v = .error .tooLarge) :=
  ⟨exists_ofJson_iff, fun _ => reads_of_ofJson, fun _ => report_of_ofJson, ofJson_eq_tooLarge⟩

end

/-- A document that is not read, because the coordinate of a category is an integer beyond the doubles, and
that is not reported either; and a value whose list of categories is an integer too long to be shown, so
that its error is not reported. -/
theorem ofJson_document_tooLarge :
    let v : Json := .obj
      [ ("categories", .arr
          [.obj [("name", .str "A"), ("x", .int (10 ^ 400)), ("y", .int 0), ("r", .int 1)]])]
    let long : Json := .int (10 ^ 5000)
    (IsDocument v ∧ ofJson v = .error .tooLarge ∧
      ∀ path, report path (.unfit .tooLarge) = .error .tooLarge) ∧
    ofJson (.obj [("categories", long)]) = .error (.unexpected .categories .list long) ∧
      ∀ path, report path (.unfit (.unexpected .categories .list long)) = .error (.tooManyDigits none) := by
  intro v long
  -- The category is in the schema whatever the size of its coordinate.
  have hcategory :
      IsCategory (.obj [("name", .str "A"), ("x", .int (10 ^ 400)), ("y", .int 0), ("r", .int 1)]) := by
    refine ⟨_, rfl,
      { name := ⟨"A", rfl⟩
        color := fun w hw => nomatch hw
        coordinate := fun key hkey w hw => ?_ }⟩
    simp only [coordinates, List.mem_cons, List.not_mem_nil, or_false] at hkey
    rcases hkey with rfl | rfl | rfl <;> obtain rfl := Option.some.inj hw <;> trivial
  have hdocument : IsDocument v :=
    ⟨_, rfl,
      { categories := ⟨_, rfl, List.forall_mem_singleton.mpr hcategory⟩
        organizations := fun w hw => nomatch hw }⟩
  have hrange : ¬ InRange v := fun h => by
    have hlt : (10 ^ 400 : Int).natAbs < Binary64.integerLimit :=
      h (10 ^ 400) ⟨_, rfl, _, rfl, _, List.mem_singleton_self _, _, rfl, "x", by decide, rfl⟩
    exact Nat.not_lt.mpr Binary64.integerLimit_le_natAbs_ten_pow hlt
  -- Only whether the integer has too many digits is decided; they are not written out.
  have hlong : long.display = .error (.tooManyDigits none) := by
    have hdigits : ¬ (10 ^ 5000 : Int).natAbs < 10 ^ Text.digitLimit := by decide +kernel
    rw [Json.display, Json.displayWithin, Text.writeInt?_eq, if_neg hdigits]
  have hunshown : (ReadError.unexpected .categories .list long).message = .error (.tooManyDigits none) := by
    rw [ReadError.message, hlong, Except.map]
  exact ⟨⟨hdocument, ofJson_eq_tooLarge hdocument hrange, fun _ => rfl⟩, rfl, fun _ => hunshown⟩

end Document
end VennDiagram
