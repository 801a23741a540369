import VennDiagram.Json.Writer
import VennDiagram.Proofs.Steps
import VennDiagram.Proofs.Tables
import VennDiagram.Proofs.Text.Numeral

/-!
# `VennDiagram.Proofs.Json.Display`: values that can be shown

A message about a value shows the value, and there are two reasons for which it cannot: an integer in it is
too long to be written, and its containers lie too deep within each other. `Showable` says that a value
gives neither reason. It is what the parts of a value inherit (`Showable.of_mem`, `Showable.of_field?`), and
a value is shown if and only if it is showable (`exists_display_iff`). The proof goes along the two
mutual recursions of `displayWithin`, over a value and over the rest of a list.
-/

set_option autoImplicit false

namespace VennDiagram.Json

/-- No integer in the value has more digits than are written, and at most `depth` containers lie within
each other. -/
inductive Showable : (depth : Nat) → Json → Prop
  | null (depth : Nat) : Showable depth .null
  | bool (depth : Nat) (b : Bool) : Showable depth (.bool b)
  | int (depth : Nat) {i : Int} (h : i.natAbs < 10 ^ Text.digitLimit) : Showable depth (.int i)
  | float (depth : Nat) (x : Float) : Showable depth (.float x)
  | str (depth : Nat) (s : String) : Showable depth (.str s)
  | arr {depth : Nat} {items : List Json} (h : ∀ v ∈ items, Showable depth v) :
    Showable (depth + 1) (.arr items)
  | obj {depth : Nat} {fields : List (String × Json)} (h : ∀ field ∈ fields, Showable depth field.2) :
    Showable (depth + 1) (.obj fields)

variable {depth : Nat} {v w : Json} {items : List Json} {fields : List (String × Json)} {name : String}

/-! ### Parts of a value -/

/-- More room does no harm. -/
theorem Showable.succ (h : Showable depth v) : Showable (depth + 1) v := by
  induction h with
  | null => exact .null _
  | bool => exact .bool _ _
  | int _ hi => exact .int _ hi
  | float => exact .float _ _
  | str => exact .str _ _
  | arr _ ih => exact .arr ih
  | obj _ ih => exact .obj ih

/-- The items of a list can be shown where the list can. -/
theorem Showable.of_mem (h : Showable depth (.arr items)) (hv : v ∈ items) : Showable depth v := by
  cases h with
  | arr hitems => exact (hitems v hv).succ

/-- The values of the fields of an object can be shown where the object can. -/
theorem Showable.of_field? (h : Showable depth (.obj fields)) (hv : field? fields name = some v) :
    Showable depth v := by
  cases h with
  | obj hfields =>
    have hmem : (name, v) ∈ fields := mem_of_lookup_eq_some hv
    exact (hfields _ hmem).succ

/-- A list can be shown exactly if each item can, one level less deep. -/
theorem showable_arr_iff : Showable (depth + 1) (.arr items) ↔ ∀ v ∈ items, Showable depth v :=
  ⟨fun | .arr h => h, .arr⟩

/-- An object can be shown exactly if the value of each field can, one level less deep. -/
theorem showable_obj_iff :
    Showable (depth + 1) (.obj fields) ↔ ∀ field ∈ fields, Showable depth field.2 :=
  ⟨fun | .obj h => h, .obj⟩

/-! ### Showing -/

mutual

/-- A value has a text exactly if it can be shown. -/
theorem exists_displayWithin_iff (v : Json) (depth : Nat) :
    (∃ s, displayWithin v depth = .ok s) ↔ Showable depth v := by
  -- A container takes one level of the depth for itself and leaves the rest to its items.
  match v, depth with
  | .null, depth => exact iff_of_true ⟨_, rfl⟩ (.null depth)
  | .bool b, depth => exact iff_of_true ⟨_, rfl⟩ (.bool depth b)
  | .float x, depth => exact iff_of_true ⟨_, rfl⟩ (.float depth x)
  | .str s, depth => exact iff_of_true ⟨_, rfl⟩ (.str depth s)
  | .int i, depth =>
    rw [displayWithin, Text.writeInt?_eq]
    by_cases hi : i.natAbs < 10 ^ Text.digitLimit
    · rw [if_pos hi]
      exact iff_of_true ⟨_, rfl⟩ (.int depth hi)
    · rw [if_neg hi]
      exact iff_of_false (fun ⟨_, h⟩ => nomatch h) fun | .int _ h => hi h
  | .arr items, 0 => exact iff_of_false (fun ⟨_, h⟩ => nomatch h) fun h => nomatch h
  | .arr [], depth + 1 => exact iff_of_true ⟨_, rfl⟩ (.arr (List.forall_mem_nil _))
  | .arr (v :: rest), depth + 1 =>
    rw [displayWithin, exists_bind_bind_eq_ok_iff, exists_displayWithin_iff v depth,
      exists_displayItems_iff rest depth, showable_arr_iff, List.forall_mem_cons]
  | .obj fields, 0 => exact iff_of_false (fun ⟨_, h⟩ => nomatch h) fun h => nomatch h
  | .obj [], depth + 1 => exact iff_of_true ⟨_, rfl⟩ (.obj (List.forall_mem_nil _))
  | .obj ((name, v) :: rest), depth + 1 =>
    rw [displayWithin, exists_bind_bind_eq_ok_iff, exists_displayWithin_iff v depth,
      exists_displayFields_iff rest depth, showable_obj_iff, List.forall_mem_cons]

/-- Items have one exactly if each can be shown. -/
theorem exists_displayItems_iff (items : List Json) (depth : Nat) :
    (∃ s, displayItems items depth = .ok s) ↔ ∀ v ∈ items, Showable depth v := by
  match items with
  | [] => exact iff_of_true ⟨_, rfl⟩ (List.forall_mem_nil _)
  | v :: rest =>
    rw [displayItems, exists_bind_bind_eq_ok_iff, exists_displayWithin_iff v depth,
      exists_displayItems_iff rest depth, List.forall_mem_cons]

/-- So have fields. -/
theorem exists_displayFields_iff (fields : List (String × Json)) (depth : Nat) :
    (∃ s, displayFields fields depth = .ok s) ↔ ∀ field ∈ fields, Showable depth field.2 := by
  match fields with
  | [] => exact iff_of_true ⟨_, rfl⟩ (List.forall_mem_nil _)
  | (name, v) :: rest =>
    rw [displayFields, exists_bind_bind_eq_ok_iff, exists_displayWithin_iff v depth,
      exists_displayFields_iff rest depth, List.forall_mem_cons]

end

/-- A value is shown if and only if it is showable. -/
theorem exists_display_iff [Limits] : (∃ s, v.display = .ok s) ↔ Showable Limits.depth v :=
  exists_displayWithin_iff v Limits.depth

/-! ### Not showing -/

/-- The failure to write an integer, or to go deeper. -/
def IsDisplayFailure (f : Failure) : Prop := f = .tooManyDigits none ∨ f = .tooDeep none

mutual

/-- Showing a value fails for a reason of showing only. -/
theorem failsOnly_displayWithin (v : Json) (depth : Nat) :
    FailsOnly IsDisplayFailure (displayWithin v depth) := by
  -- The recursion is that of the display: through the items, with one level of the depth less.
  match v, depth with
  | .null, _ | .bool _, _ | .float _, _ | .str _, _ => exact .ok _
  | .int i, _ =>
    rw [displayWithin]
    cases Text.writeInt? i with
    | some digits => exact .ok digits
    | none => exact .error (Or.inl rfl)
  | .arr items, 0 => exact .error (Or.inr rfl)
  | .arr [], _ + 1 => exact .ok _
  | .arr (v :: rest), depth + 1 =>
    rw [displayWithin]
    exact .bind (failsOnly_displayWithin v depth) fun _ _ =>
      .bind (failsOnly_displayItems rest depth) fun _ _ => .ok _
  | .obj fields, 0 => exact .error (Or.inr rfl)
  | .obj [], _ + 1 => exact .ok _
  | .obj ((name, v) :: rest), depth + 1 =>
    rw [displayWithin]
    exact .bind (failsOnly_displayWithin v depth) fun _ _ =>
      .bind (failsOnly_displayFields rest depth) fun _ _ => .ok _

/-- So does showing items. -/
theorem failsOnly_displayItems (items : List Json) (depth : Nat) :
    FailsOnly IsDisplayFailure (displayItems items depth) := by
  match items with
  | [] => exact .ok _
  | v :: rest =>
    rw [displayItems]
    exact .bind (failsOnly_displayWithin v depth) fun _ _ =>
      .bind (failsOnly_displayItems rest depth) fun _ _ => .ok _

/-- So does showing fields. -/
theorem failsOnly_displayFields (fields : List (String × Json)) (depth : Nat) :
    FailsOnly IsDisplayFailure (displayFields fields depth) := by
  match fields with
  | [] => exact .ok _
  | (name, v) :: rest =>
    rw [displayFields]
    exact .bind (failsOnly_displayWithin v depth) fun _ _ =>
      .bind (failsOnly_displayFields rest depth) fun _ _ => .ok _

end

end VennDiagram.Json
