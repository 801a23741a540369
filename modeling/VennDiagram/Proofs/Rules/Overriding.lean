import VennDiagram.Proofs.Number.Integers
import VennDiagram.Proofs.Steps
import VennDiagram.Proofs.Tables
import VennDiagram.Rules.Override

/-!
# `VennDiagram.Proofs.Rules.Overriding`: what overrides do to rules

Rules are the values of nineteen keys, two of which count something. `HasValue` says that rules have the
value that JSON gives for a key, and `SameValue` that two rules agree on it.

* One field: it is accepted if it `Makes` a change, which gives its key the value and leaves all others
  alone (`Makes.hasValue`, `Makes.sameValue`).
* All fields: `Overrides` says which value every key has in the end, that of the last field of its name or
  else that of the base. One field overrides (`Overrides.singleton`), overrides of overrides do
  (`Overrides.trans`), and so does every list of accepted fields (`overrides_foldl_change`).

`Overrides` leaves one possible result (`Overrides.unique`), so rules are overridden with an object if and
only if all its fields are accepted, and then with the result that `Overrides` describes
(`ofJson_obj_eq_ok_iff`).
-/

set_option autoImplicit false

namespace VennDiagram.Rules

/-! ### Names -/

/-- The name of a rule is one of that rule. -/
theorem Key.ofName?_name (k : Key) : Key.ofName? k.name = some k := by
  rcases k with k | k <;> cases k <;> rfl

/-- A name is that of a rule exactly if the rule has it. -/
theorem Key.ofName?_eq_some_iff {name : String} {k : Key} : Key.ofName? name = some k ↔ k.name = name := by
  constructor
  · intro h
    exact eq_of_beq (List.find?_some (p := fun k => Key.name k == name) h)
  · rintro rfl
    exact k.ofName?_name

/-- No two rules share a name. -/
theorem Key.name_injective : Function.Injective Key.name := fun k _ h =>
  Option.some.inj (k.ofName?_name.symm.trans (Key.ofName?_eq_some_iff.mpr h.symm))

/-! ### Values -/

section
variable {α : Type} (r : Rules α)

/-- Setting a number changes the rule that is set, and no other number. -/
theorem getReal_setReal (k k' : RealKey) (x : α) :
    (r.setReal k x).getReal k' = if k' = k then x else r.getReal k' := by
  cases k <;> cases k' <;> rfl

/-- Setting a count changes no number. -/
theorem getReal_setCount (k : CountKey) (k' : RealKey) (i : Int) :
    (r.setCount k i).getReal k' = r.getReal k' := by
  cases k <;> cases k' <;> rfl

/-- Setting a number changes no count. -/
theorem getCount_setReal (k : RealKey) (k' : CountKey) (x : α) :
    (r.setReal k x).getCount k' = r.getCount k' := by
  cases k <;> cases k' <;> rfl

/-- Setting a count changes the rule that is set, and no other count. -/
theorem getCount_setCount (k k' : CountKey) (i : Int) :
    (r.setCount k i).getCount k' = if k' = k then i else r.getCount k' := by
  cases k <;> cases k' <;> rfl

/-- Both rules have the same value for the key. -/
def SameValue (r other : Rules α) : Key → Prop
  | .real k => r.getReal k = other.getReal k
  | .count k => r.getCount k = other.getCount k

/-- Rules are their values. -/
theorem eq_of_sameValue {r other : Rules α} (h : ∀ k, SameValue r other k) : r = other := by
  have hreal : ∀ k, r.getReal k = other.getReal k := fun k => h (.real k)
  have hcount : ∀ k, r.getCount k = other.getCount k := fun k => h (.count k)
  cases r
  cases other
  simp only [mk.injEq]
  exact ⟨hreal .canvasWidth, hreal .canvasHeight, hreal .minOrgSeparation, hreal .labelPadding,
    hreal .charWidth, hreal .textSidePadding, hreal .fontSize, hreal .lineHeight, hreal .baselineDescent,
    hreal .orgGridStep, hreal .orgInsideMargin, hreal .orgOutsideMargin, hcount .maxOrgCandidates,
    hcount .labelDirections, hreal .labelDistance, hreal .baseRadius, hreal .radiusRange,
    hreal .ringDistance, hreal .fallbackLabelOffset⟩

end

/-- The rules have the value that JSON gives for the key. A whole double is counted in the least positive
one, of which 1 has `2 ^ 1074`. -/
def HasValue (r : Rules Float) : Key → Json → Prop
  | .real k, .int i => Binary64.ofInt? i = some (r.getReal k)
  | .real k, .float x => x.isFinite = true ∧ r.getReal k = x
  | .count k, .int i => r.getCount k = i
  | .count k, .float x => x.isFinite = true ∧ Binary64.units x = r.getCount k * (2 ^ 1074 : Nat)
  | _, _ => False

variable {base r r' : Rules Float} {k k' : Key} {v : Json} {c : Change}

/-- A value that a number has is finite. -/
theorem HasValue.isFinite {k : RealKey} (h : r.HasValue (.real k) v) : (r.getReal k).isFinite = true := by
  cases v with
  | int i => exact Binary64.isFinite_of_ofInt? h
  | float x => exact h.2 ▸ h.1
  | _ => exact h.elim

/-- Having the same value of a key is transitive. -/
theorem SameValue.trans {r₁ r₂ r₃ : Rules Float} (h : SameValue r₁ r₂ k) (h' : SameValue r₂ r₃ k) :
    SameValue r₁ r₃ k := by
  cases k <;> exact Eq.trans h h'

/-- Rules with the same value of a key both have a value, or neither. -/
theorem SameValue.hasValue_iff (h : SameValue r r' k) : r.HasValue k v ↔ r'.HasValue k v := by
  cases k with
  | real k =>
    have hreal : r.getReal k = r'.getReal k := h
    cases v <;> simp only [HasValue, hreal]
  | count k =>
    have hcount : r.getCount k = r'.getCount k := h
    cases v <;> simp only [HasValue, hcount]

/-- JSON gives one value only. -/
theorem HasValue.sameValue (h : r.HasValue k v) (h' : r'.HasValue k v) : SameValue r r' k := by
  cases k with
  | real k =>
    cases v with
    | int i => exact Option.some.inj (h.symm.trans h')
    | float x => exact h.2.trans h'.2.symm
    | _ => exact h.elim
  | count k =>
    cases v with
    | int i => exact h.trans h'.symm
    | float x =>
      have hunit : ((2 ^ 1074 : Nat) : Int) ≠ 0 := Int.natCast_ne_zero.mpr (pow_pos two_pos 1074).ne'
      exact Int.eq_of_mul_eq_mul_right hunit (h.2.symm.trans h'.2)
    | _ => exact h.elim

/-! ### Changes -/

/-- The value makes the change for the key. -/
inductive Makes : Key → Json → Change → Prop
  | realInt {k : RealKey} {i : Int} {x : Float} (h : Binary64.ofInt? i = some x) :
    Makes (.real k) (.int i) (.real k x)
  | realFloat {k : RealKey} {x : Float} (h : x.isFinite = true) : Makes (.real k) (.float x) (.real k x)
  | countInt {k : CountKey} {i : Int} (h : i.natAbs < Binary64.integerLimit) :
    Makes (.count k) (.int i) (.count k i)
  | countFloat {k : CountKey} {x : Float} {i : Int} (h : Binary64.toInt? x = some i) :
    Makes (.count k) (.float x) (.count k i)

/-- The change that is read from a value is one that makes it. -/
theorem Key.makes_of_change (h : k.change v = .ok c) : Makes k v c := by
  -- The two kinds of numbers are changed differently, and each differently again for the two kinds of
  -- rules.
  cases v with
  | int i =>
    simp only [Key.change] at h
    cases hi : Binary64.ofInt? i with
    | none =>
      rw [hi] at h
      exact nomatch h
    | some x =>
      rw [hi] at h
      cases k with
      | real k => exact Except.ok.inj h ▸ .realInt hi
      | count k => exact Except.ok.inj h ▸ .countInt (Binary64.lt_integerLimit_of_ofInt? hi)
  | float x =>
    simp only [Key.change] at h
    split at h
    · rename_i hfinite
      cases k with
      | real k => exact Except.ok.inj h ▸ .realFloat hfinite
      | count k =>
        cases hx : Binary64.toInt? x with
        | none =>
          simp only [hx] at h
          exact nomatch h
        | some i =>
          simp only [hx] at h
          exact Except.ok.inj h ▸ .countFloat hx
    · exact nomatch h
  | _ => exact nomatch h

/-- A change gives its key the value. -/
theorem Makes.hasValue (h : Makes k v c) (r : Rules Float) : (r.change c).HasValue k v := by
  cases h with
  | realInt h => exact h.trans (congrArg some ((getReal_setReal ..).trans (if_pos rfl)).symm)
  | realFloat h => exact ⟨h, (getReal_setReal ..).trans (if_pos rfl)⟩
  | countInt h => exact (getCount_setCount ..).trans (if_pos rfl)
  | @countFloat k x i h =>
    have hcount : (r.change (.count k i)).getCount k = i := (getCount_setCount ..).trans (if_pos rfl)
    obtain ⟨hfinite, hunits⟩ := Binary64.toInt?_eq_some_iff.mp h
    refine ⟨hfinite, ?_⟩
    rw [hcount]
    exact hunits

/-- A change leaves the other keys alone. -/
theorem Makes.sameValue (h : Makes k v c) (hne : k' ≠ k) (r : Rules Float) :
    SameValue (r.change c) r k' := by
  have hreal : ∀ (k : RealKey) x, k' ≠ .real k → SameValue (r.change (.real k x)) r k' := by
    intro k x hne
    cases k' with
    | real k' => exact (getReal_setReal r k k' x).trans (if_neg fun heq => hne (congrArg Key.real heq))
    | count k' => exact getCount_setReal r k k' x
  have hcount : ∀ (k : CountKey) i, k' ≠ .count k → SameValue (r.change (.count k i)) r k' := by
    intro k i hne
    cases k' with
    | real k' => exact getReal_setCount r k k' i
    | count k' => exact (getCount_setCount r k k' i).trans (if_neg fun heq => hne (congrArg Key.count heq))
  cases h with
  | realInt | realFloat => exact hreal _ _ hne
  | countInt | countFloat => exact hcount _ _ hne

/-- A field is read as a change exactly if its name is that of a rule that can have its value. -/
theorem changeOf_eq_ok_iff {field : String × Json} :
    changeOf field = .ok c ↔ ∃ k : Key, k.name = field.1 ∧ k.change field.2 = .ok c := by
  rw [changeOf]
  cases hk : Key.ofName? field.1 with
  | none =>
    refine iff_of_false (fun h => nomatch h) fun ⟨k, hname, _⟩ => ?_
    exact nomatch hk.symm.trans (Key.ofName?_eq_some_iff.mpr hname)
  | some k =>
    constructor
    · exact fun h => ⟨k, Key.ofName?_eq_some_iff.mp hk, h⟩
    · rintro ⟨k', hname, h⟩
      obtain rfl := Option.some.inj (hk.symm.trans (Key.ofName?_eq_some_iff.mpr hname))
      exact h

/-! ### Overrides -/

/-- The rules have the values of the fields, the last one of each name, and else those of the base. -/
structure Overrides (base : Rules Float) (fields : List (String × Json)) (r : Rules Float) : Prop where
  listed : ∀ k v, Json.lastField? fields k.name = some v → r.HasValue k v
  kept : ∀ k, Json.lastField? fields k.name = none → SameValue r base k

section
variable {fields fields₁ fields₂ : List (String × Json)} {field : String × Json} {changes : List Change}

/-- Without fields nothing changes. -/
theorem Overrides.nil (base : Rules Float) : Overrides base [] base where
  listed _ _ h := nomatch h
  kept k _ := by cases k <;> rfl

/-- An accepted field overrides. -/
theorem Overrides.singleton (h : changeOf field = .ok c) : Overrides base [field] (base.change c) := by
  obtain ⟨k, hname, hchange⟩ := changeOf_eq_ok_iff.mp h
  have hmakes := Key.makes_of_change hchange
  constructor
  · intro k' v hv
    obtain ⟨heq, hv⟩ := Option.ite_none_right_eq_some.mp (Json.lastField?_singleton.symm.trans hv)
    obtain rfl := Key.name_injective (heq.trans hname.symm)
    exact Option.some.inj hv ▸ hmakes.hasValue base
  · intro k' hnone
    refine hmakes.sameValue ?_ base
    rintro rfl
    rw [Json.lastField?_eq_none_iff] at hnone
    exact hnone (List.mem_singleton.mpr hname)

/-- Overrides of overrides are overrides. -/
theorem Overrides.trans {r₁ : Rules Float} (h₁ : Overrides base fields₁ r₁) (h₂ : Overrides r₁ fields₂ r) :
    Overrides base (fields₁ ++ fields₂) r := by
  constructor
  · intro k v hv
    rw [Json.lastField?_append] at hv
    -- Where the second list has no field for a key, the value of the first is kept.
    cases hsecond : Json.lastField? fields₂ k.name with
    | some w =>
      rw [hsecond] at hv
      obtain rfl := Option.some.inj hv
      exact h₂.listed k w hsecond
    | none =>
      rw [hsecond] at hv
      exact (h₂.kept k hsecond).hasValue_iff.mpr (h₁.listed k v hv)
  · intro k hnone
    rw [Json.lastField?_append] at hnone
    obtain ⟨hsecond, hfirst⟩ := Option.or_eq_none_iff.mp hnone
    exact (h₂.kept k hsecond).trans (h₁.kept k hfirst)

/-- Overrides with the same last value for each name have the same result. -/
theorem Overrides.unique {r₁ r₂ : Rules Float} (h₁ : Overrides base fields₁ r₁)
    (h₂ : Overrides base fields₂ r₂)
    (hvalues : ∀ name, Json.lastField? fields₁ name = Json.lastField? fields₂ name) : r₁ = r₂ := by
  refine eq_of_sameValue fun k => ?_
  cases hvalue : Json.lastField? fields₁ k.name with
  | some v => exact (h₁.listed k v hvalue).sameValue (h₂.listed k v (hvalues k.name ▸ hvalue))
  | none =>
    have hbase := h₂.kept k (hvalues k.name ▸ hvalue)
    cases k <;> exact (h₁.kept _ hvalue).trans hbase.symm

/-- The changes that are read from fields, made one after the other, override the rules with the fields.
-/
theorem overrides_foldl_change (h : List.Forall₂ (fun field c => changeOf field = .ok c) fields changes) :
    Overrides base fields (changes.foldl change base) := by
  induction h generalizing base with
  | nil => exact .nil base
  | cons hfield _ ih => exact (Overrides.singleton hfield).trans ih

/-- Fields that are all accepted override the base. -/
theorem ofJson_obj_eq_ok_iff :
    ofJson base (.obj fields) = .ok r ↔
      (∀ field ∈ fields, ∃ c, changeOf field = .ok c) ∧ Overrides base fields r := by
  constructor
  · intro h
    obtain ⟨changes, hchanges, rfl⟩ := map_eq_ok_iff.mp h
    exact ⟨exists_mapM_eq_ok_iff.mp ⟨changes, hchanges⟩, overrides_foldl_change (mapM_eq_ok_iff.mp hchanges)⟩
  · rintro ⟨haccepted, hr⟩
    obtain ⟨changes, hchanges⟩ := exists_mapM_eq_ok_iff.mpr haccepted
    have hfold : Overrides base fields (changes.foldl change base) :=
      overrides_foldl_change (mapM_eq_ok_iff.mp hchanges)
    exact map_eq_ok_iff.mpr ⟨changes, hchanges, hfold.unique hr fun _ => rfl⟩

end

/-- No rule is infinite or NaN that was not so before. -/
theorem isFinite_getReal_of_ofJson (h : ofJson base v = .ok r)
    (hbase : ∀ k, (base.getReal k).isFinite = true) : ∀ k, (r.getReal k).isFinite = true := by
  intro k
  cases v with
  | obj fields =>
    obtain ⟨-, hr⟩ := ofJson_obj_eq_ok_iff.mp h
    cases hvalue : Json.lastField? fields (Key.real k).name with
    | none =>
      have hkept : r.getReal k = base.getReal k := hr.kept (.real k) hvalue
      exact hkept ▸ hbase k
    | some v => exact (hr.listed (.real k) v hvalue).isFinite
  | _ => exact nomatch h

end VennDiagram.Rules
