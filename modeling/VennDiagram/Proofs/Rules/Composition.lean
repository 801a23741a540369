import VennDiagram.Proofs.Rules.Overriding

/-!
# `VennDiagram.Proofs.Rules.Composition`: overrides on top of overrides

Whether a field is accepted does not depend on the rules that it overrides, and what fields make of rules
depends on the last value of each name alone (`Overrides.unique`). Fields on top of other fields are the two
lists of fields one after the other (`Overrides.trans`). So every law of overriding is one of these lookups:
the names of two objects that are merged, or that are disjoint, the same object twice, and an object in
another order. `ofJson_composes` puts them together.
-/

set_option autoImplicit false

namespace VennDiagram.Rules

variable {base r r₁ r₂ : Rules Float} {fields other o₁ o₂ : List (String × Json)}

/-- Fields that override some rules override all rules. -/
theorem exists_ofJson_of_ofJson (h : ofJson base (.obj fields) = .ok r) (base' : Rules Float) :
    ∃ r', ofJson base' (.obj fields) = .ok r' := by
  obtain ⟨haccepted, -⟩ := ofJson_obj_eq_ok_iff.mp h
  obtain ⟨changes, hchanges⟩ := exists_mapM_eq_ok_iff.mpr haccepted
  exact ⟨_, map_eq_ok_iff.mpr ⟨changes, hchanges, rfl⟩⟩

/-- Fields with the same last values have the same effect. -/
theorem Overrides.congr (h : Overrides base fields r)
    (hvalues : ∀ name, Json.lastField? other name = Json.lastField? fields name) :
    Overrides base other r where
  listed k v hv := h.listed k v (hvalues k.name ▸ hv)
  kept k hnone := h.kept k (hvalues k.name ▸ hnone)

/-- Two objects, one on top of the other, have the effect of both merged. -/
theorem ofJson_of_merges (h₁ : ofJson base (.obj o₁) = .ok r₁) (h₂ : ofJson r₁ (.obj o₂) = .ok r)
    (hmerges : Json.Merges o₁ o₂ fields) : ofJson base (.obj fields) = .ok r := by
  obtain ⟨haccepted₁, hr₁⟩ := ofJson_obj_eq_ok_iff.mp h₁
  obtain ⟨haccepted₂, hr⟩ := ofJson_obj_eq_ok_iff.mp h₂
  refine ofJson_obj_eq_ok_iff.mpr ⟨fun field hfield => ?_, (hr₁.trans hr).congr hmerges.lastField?_eq⟩
  rcases hmerges.mem_or_mem hfield with hmem | hmem
  · exact haccepted₁ field hmem
  · exact haccepted₂ field hmem

/-- Two objects without a common name have the same effect in either order. -/
theorem ofJson_of_disjoint (h₁ : ofJson base (.obj o₁) = .ok r₁) (h₂ : ofJson base (.obj o₂) = .ok r₂)
    (h : ofJson r₁ (.obj o₂) = .ok r) (hdisjoint : (o₁.map Prod.fst).Disjoint (o₂.map Prod.fst)) :
    ofJson r₂ (.obj o₁) = .ok r := by
  obtain ⟨r', h'⟩ := exists_ofJson_of_ofJson h₁ r₂
  have hr := (ofJson_obj_eq_ok_iff.mp h₁).2.trans (ofJson_obj_eq_ok_iff.mp h).2
  have hr' := (ofJson_obj_eq_ok_iff.mp h₂).2.trans (ofJson_obj_eq_ok_iff.mp h').2
  have hvalues : ∀ name, Json.lastField? (o₂ ++ o₁) name = Json.lastField? (o₁ ++ o₂) name := by
    intro name
    rw [Json.lastField?_append, Json.lastField?_append]
    -- At most one of the two has the name.
    by_cases hfirst : name ∈ o₁.map Prod.fst
    · have hsecond := Json.lastField?_eq_none_iff.mpr (hdisjoint hfirst)
      rw [hsecond, Option.none_or, Option.or_none]
    · rw [Json.lastField?_eq_none_iff.mpr hfirst, Option.none_or, Option.or_none]
  rw [h', hr'.unique hr hvalues]

/-- An object changes nothing a second time. -/
theorem ofJson_twice (h : ofJson base (.obj fields) = .ok r) : ofJson r (.obj fields) = .ok r := by
  obtain ⟨r', h'⟩ := exists_ofJson_of_ofJson h r
  have hr := (ofJson_obj_eq_ok_iff.mp h).2
  have hr' := hr.trans (ofJson_obj_eq_ok_iff.mp h').2
  have hvalues : ∀ name, Json.lastField? (fields ++ fields) name = Json.lastField? fields name := fun name =>
    Json.lastField?_append.trans Option.or_self
  rw [h', hr'.unique hr hvalues]

/-- The order of the fields of an object does not matter. -/
theorem ofJson_of_perm (h : ofJson base (.obj fields) = .ok r) (hperm : other.Perm fields)
    (hdistinct : (fields.map Prod.fst).Nodup) : ofJson base (.obj other) = .ok r := by
  obtain ⟨haccepted, hr⟩ := ofJson_obj_eq_ok_iff.mp h
  have hdistinct' : (other.map Prod.fst).Nodup := (hperm.map Prod.fst).nodup_iff.mpr hdistinct
  have hvalues : ∀ name, Json.lastField? other name = Json.lastField? fields name := fun name => by
    rw [Json.lastField?_eq_field? hdistinct', Json.lastField?_eq_field? hdistinct]
    exact lookup_eq_of_perm hperm hdistinct'
  exact ofJson_obj_eq_ok_iff.mpr
    ⟨fun field hfield => haccepted field (hperm.mem_iff.mp hfield), hr.congr hvalues⟩

/-- Overriding rules with one object and then with another is overriding them with both at once, where the
second wins. So a file changes nothing a second time, the order of two objects without a common name does
not matter, and neither does the order of the fields of an object. -/
theorem ofJson_composes [Json.Limits] (h₁ : ofJson base (.obj o₁) = .ok r₁)
    (h₂ : ofJson base (.obj o₂) = .ok r₂) :
    (∃ r, ofJson r₁ (.obj o₂) = .ok r ∧
      (∀ o, Json.Merges o₁ o₂ o → ofJson base (.obj o) = .ok r) ∧
      ofJson base (Json.object (o₁ ++ o₂)) = .ok r ∧
      ((o₁.map Prod.fst).Disjoint (o₂.map Prod.fst) → ofJson r₂ (.obj o₁) = .ok r)) ∧
    (∀ content, Json.load (ε := OverrideError) content = .ok (.obj o₁) →
      load base content = .ok r₁ ∧ load r₁ content = .ok r₁) ∧
    (∀ o, o.Perm o₁ → (o₁.map Prod.fst).Nodup → ofJson base (.obj o) = .ok r₁) := by
  obtain ⟨r, h⟩ := exists_ofJson_of_ofJson h₂ r₁
  obtain ⟨merged, hobject, hmerges⟩ := Json.exists_object_append o₁ o₂
  refine ⟨⟨r, h, ?_, ?_, ofJson_of_disjoint h₁ h₂ h⟩, ?_, fun o => ofJson_of_perm h₁⟩
  · exact fun o ho => ofJson_of_merges h₁ h ho
  · rw [hobject]
    exact ofJson_of_merges h₁ h hmerges
  · intro content hcontent
    rw [load, load, hcontent]
    exact ⟨mapError_eq_ok_iff.mpr h₁, mapError_eq_ok_iff.mpr (ofJson_twice h₁)⟩

/-- Sixteen directions, spelled as an integer and as a double. The padding of the second object comes on top
of the width of the first. -/
theorem ofJson_composes_spellings :
    let o₁ : List (String × Json) := [("label_directions", .int 16), ("char_width", .float 9.5)]
    let o₂ : List (String × Json) := [("label_directions", .float 16), ("label_padding", .int 3)]
    let both : List (String × Json) :=
      [("label_padding", .int 3), ("char_width", .float 9.5), ("label_directions", .float 16)]
    let r₁ : Rules Float := { Rules.standard with labelDirections := 16, charWidth := 9.5 }
    let r₂ : Rules Float := { Rules.standard with labelDirections := 16, labelPadding := 3 }
    let r : Rules Float := { Rules.standard with labelDirections := 16, charWidth := 9.5, labelPadding := 3 }
    ofJson Rules.standard (.obj o₁) = .ok r₁ ∧ ofJson Rules.standard (.obj o₂) = .ok r₂ ∧
      ofJson r₁ (.obj o₂) = .ok r ∧ ofJson Rules.standard (.obj both) = .ok r ∧
      ofJson Rules.standard (.obj [("char_width", .float 9.5), ("label_directions", .int 16)]) = .ok r₁ := by
  intro o₁ o₂ both r₁ r₂ r
  have h₁ : ofJson Rules.standard (.obj o₁) = .ok r₁ := rfl
  have h₂ : ofJson Rules.standard (.obj o₂) = .ok r₂ := rfl
  -- The merged object may list the fields in any order; the last value of each name counts.
  have hmerges : Json.Merges o₁ o₂ both := by
    refine ⟨by decide, fun name => ?_⟩
    simp only [o₁, o₂, both, Json.lastField?, List.reverse_cons, List.reverse_nil, List.nil_append,
      List.cons_append, Json.field?_cons]
    split_ifs <;> simp_all [Json.field?]
  obtain ⟨⟨r', hr', hboth, -⟩, -, hperm⟩ := ofJson_composes h₁ h₂
  obtain rfl : r' = r := Except.ok.inj (hr'.symm.trans rfl)
  exact ⟨h₁, h₂, hr', hboth both hmerges, hperm _ (.swap _ _ _) (by decide)⟩

end VennDiagram.Rules
