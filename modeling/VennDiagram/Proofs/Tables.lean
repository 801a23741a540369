import Mathlib.Data.List.Lookmap
import Mathlib.Data.List.Nodup
import VennDiagram.Json.Basic

/-!
# `VennDiagram.Proofs.Tables`: tables of keys and values

A table is a list of keys with their values, and a lookup finds the first value of a key. In a table that
has each key once it finds all there is (`lookup_eq_some_iff_mem`), so the order of the entries does not
matter.

The fields of a JSON object are such a table. Where fields are read one after the other, a later one
replaces an earlier one of the same name, so the last value of a name counts (`Json.lastField?`).
`Json.object` keeps these values under distinct names (`Json.exists_object`), and `Json.Merges` says the
same of any object with the fields of two others.
-/

set_option autoImplicit false

namespace VennDiagram

section
variable {β γ : Type} [BEq β] [LawfulBEq β] {table other : List (β × γ)} {key : β}

/-- What a table answers stands in it. -/
theorem mem_of_lookup_eq_some {value : γ} (h : table.lookup key = some value) : (key, value) ∈ table := by
  obtain ⟨before, after, rfl, -⟩ := List.lookup_eq_some_iff.mp h
  exact List.mem_append_right _ List.mem_cons_self

/-- A table with each key once gives back its entries, and nothing else. -/
theorem lookup_eq_some_iff_mem (hkeys : (table.map Prod.fst).Nodup) {value : γ} :
    table.lookup key = some value ↔ (key, value) ∈ table := by
  refine ⟨mem_of_lookup_eq_some, fun h => ?_⟩
  obtain ⟨before, after, rfl⟩ := List.append_of_mem h
  refine List.lookup_eq_some_iff.mpr ⟨before, after, rfl, ?_⟩
  intro p hp
  -- An earlier entry with the key would be a second one.
  rw [List.map_append, List.nodup_append] at hkeys
  rw [bne_iff_ne]
  exact (hkeys.2.2 p.1 (List.mem_map_of_mem hp) key List.mem_cons_self).symm

/-- A table has no answer exactly for what is no key. -/
theorem lookup_eq_none_iff_notMem : table.lookup key = none ↔ key ∉ table.map Prod.fst := by
  rw [List.lookup_eq_none_iff, List.mem_map]
  constructor
  · rintro h ⟨p, hp, rfl⟩
    exact absurd rfl (bne_iff_ne.mp (h p hp))
  · exact fun h p hp => bne_iff_ne.mpr fun heq => h ⟨p, hp, heq.symm⟩

/-- The order of the entries does not matter in a table with each key once. -/
theorem lookup_eq_of_perm (hperm : table.Perm other) (hkeys : (table.map Prod.fst).Nodup) :
    table.lookup key = other.lookup key := by
  have hkeys' : (other.map Prod.fst).Nodup := (hperm.map Prod.fst).nodup_iff.mp hkeys
  ext value
  rw [lookup_eq_some_iff_mem hkeys, lookup_eq_some_iff_mem hkeys', hperm.mem_iff]

end

namespace Json

variable {fields fields₁ fields₂ : List (String × Json)} {name other : String} {v : Json}

/-- A field in front is asked first. -/
theorem field?_cons :
    field? ((other, v) :: fields) name = if name = other then some v else field? fields name := by
  rw [field?, List.lookup_cons]
  split
  · rename_i heq
    rw [if_pos (eq_of_beq heq)]
  · rename_i hne
    rw [if_neg (ne_of_beq_false hne), field?]

/-- The value of the last field of a name. -/
def lastField? (fields : List (String × Json)) (name : String) : Option Json := field? fields.reverse name

/-- The last field of a name stands among the fields. -/
theorem mem_of_lastField?_eq_some (h : lastField? fields name = some v) : (name, v) ∈ fields :=
  List.mem_reverse.mp (mem_of_lookup_eq_some h)

/-- There is no last field of a name exactly if there is none at all. -/
theorem lastField?_eq_none_iff : lastField? fields name = none ↔ name ∉ fields.map Prod.fst := by
  rw [lastField?, field?, lookup_eq_none_iff_notMem, List.map_reverse, List.mem_reverse]

/-- Later fields are asked before earlier ones. -/
theorem lastField?_append :
    lastField? (fields₁ ++ fields₂) name = (lastField? fields₂ name).or (lastField? fields₁ name) := by
  simp only [lastField?, field?, List.reverse_append, List.lookup_append]

/-- A single field answers to its own name only. -/
theorem lastField?_singleton : lastField? [(other, v)] name = if name = other then some v else none :=
  field?_cons

/-- Among distinct names the last field of a name is the only one. -/
theorem lastField?_eq_field? (hdistinct : (fields.map Prod.fst).Nodup) :
    lastField? fields name = field? fields name :=
  (lookup_eq_of_perm fields.reverse_perm.symm hdistinct).symm

/-! ### Objects -/

/-- Some field has a name exactly if the name is one of theirs. -/
theorem any_name_iff : fields.any (·.1 == name) = true ↔ name ∈ fields.map Prod.fst := by
  simp

/-- A replaced value is found under its name, and every other one as before. -/
theorem field?_replace :
    field? (fields.map fun field => if field.1 == other then (other, v) else field) name
      = if name = other then (field? fields name).map fun _ => v else field? fields name := by
  induction fields with
  | nil => simp [field?]
  | cons field fields ih =>
    obtain ⟨key, w⟩ := field
    have hhead : (if (key == other) = true then (other, v) else (key, w))
        = (key, if key = other then v else w) := by
      by_cases hkey : key = other <;> simp [hkey]
    simp only [List.map_cons]
    rw [hhead, field?_cons, field?_cons, ih]
    by_cases hname : name = key
    · subst hname
      by_cases hother : name = other <;> simp [hother]
    · rw [if_neg hname, if_neg hname]

/-- A field that is put answers to its name, and the others as they did. -/
theorem field?_putField :
    field? (putField fields other v) name = if name = other then some v else field? fields name := by
  rw [putField]
  by_cases hmem : other ∈ fields.map Prod.fst
  · -- A field of the name is there, so the replacement is one.
    rw [if_pos (any_name_iff.mpr hmem), field?_replace]
    split
    · rename_i heq
      have hsome : field? fields name ≠ none := fun hnone => lookup_eq_none_iff_notMem.mp hnone (heq ▸ hmem)
      obtain ⟨w, hw⟩ := Option.ne_none_iff_exists'.mp hsome
      rw [hw, Option.map_some]
    · rfl
  · rw [if_neg (mt any_name_iff.mp hmem), field?, List.lookup_append]
    show (field? fields name).or (field? [(other, v)] name) = _
    rw [field?_cons]
    split
    · rename_i heq
      have hnone : field? fields name = none := lookup_eq_none_iff_notMem.mpr (heq ▸ hmem)
      rw [hnone, Option.none_or]
    · exact Option.or_none

/-- Putting a field does not use a name twice. -/
theorem nodup_putField (hdistinct : (fields.map Prod.fst).Nodup) :
    ((putField fields name v).map Prod.fst).Nodup := by
  rw [putField]
  split
  · have hnames : (fields.map fun field => if field.1 == name then (name, v) else field).map Prod.fst
        = fields.map Prod.fst := by
      rw [List.map_map]
      refine List.map_congr_left fun field _ => ?_
      by_cases h : field.1 = name <;> simp [h]
    rwa [hnames]
  · rename_i hnew
    rw [List.map_append, List.map_singleton]
    exact List.nodup_append_comm.mp (List.nodup_cons.mpr ⟨mt any_name_iff.mpr hnew, hdistinct⟩)

/-- Putting fields one after the other keeps names distinct, and the last value of each name. -/
theorem foldl_putField (fields done : List (String × Json)) (hdistinct : (done.map Prod.fst).Nodup) :
    ((fields.foldl (fun done (name, v) => putField done name v) done).map Prod.fst).Nodup ∧
      ∀ name, field? (fields.foldl (fun done (name, v) => putField done name v) done) name
        = (lastField? fields name).or (field? done name) := by
  induction fields generalizing done with
  | nil => exact ⟨hdistinct, fun _ => rfl⟩
  | cons field fields ih =>
    obtain ⟨hnodup, hvalue⟩ := ih (putField done field.1 field.2) (nodup_putField hdistinct)
    refine ⟨hnodup, fun name => (hvalue name).trans ?_⟩
    -- The field counts after all later ones and before what was done.
    rw [field?_putField, ← List.singleton_append, lastField?_append, lastField?_singleton, Option.or_assoc]
    split <;> rfl

/-- The object of some fields has distinct names, and the last value of each. -/
theorem exists_object (fields : List (String × Json)) :
    ∃ done, object fields = .obj done ∧ (done.map Prod.fst).Nodup ∧
      ∀ name, field? done name = lastField? fields name := by
  obtain ⟨hdistinct, hvalue⟩ := foldl_putField fields [] List.nodup_nil
  exact ⟨_, rfl, hdistinct, fun name => (hvalue name).trans (Option.or_none)⟩

/-- An object has the fields of two others. Where both have a field of a name, it has the value of the
second. -/
structure Merges (fields₁ fields₂ fields : List (String × Json)) : Prop where
  distinct : (fields.map Prod.fst).Nodup
  value : ∀ name, field? fields name = (lastField? fields₂ name).or (lastField? fields₁ name)

/-- The object of fields and more fields merges them. -/
theorem exists_object_append (fields₁ fields₂ : List (String × Json)) :
    ∃ fields, object (fields₁ ++ fields₂) = .obj fields ∧ Merges fields₁ fields₂ fields := by
  obtain ⟨fields, hobject, hdistinct, hvalue⟩ := exists_object (fields₁ ++ fields₂)
  exact ⟨fields, hobject, hdistinct, fun name => (hvalue name).trans lastField?_append⟩

/-- Fields that are merged answer as if they stood one after the other. -/
theorem Merges.lastField?_eq (h : Merges fields₁ fields₂ fields) (name : String) :
    lastField? fields name = lastField? (fields₁ ++ fields₂) name := by
  rw [lastField?_eq_field? h.distinct, h.value, lastField?_append]

/-- Every merged field comes from one side. -/
theorem Merges.mem_or_mem (h : Merges fields₁ fields₂ fields) {field : String × Json}
    (hfield : field ∈ fields) : field ∈ fields₁ ∨ field ∈ fields₂ := by
  have hvalue : field? fields field.1 = some field.2 := (lookup_eq_some_iff_mem h.distinct).mpr hfield
  rw [h.value, Option.or_eq_some_iff] at hvalue
  rcases hvalue with hsecond | ⟨-, hfirst⟩
  · exact Or.inr (mem_of_lastField?_eq_some hsecond)
  · exact Or.inl (mem_of_lastField?_eq_some hfirst)

end Json
end VennDiagram
