import VennDiagram.Proofs.Json.Reading
import VennDiagram.Proofs.Rules.Overriding

/-!
# `VennDiagram.Proofs.Rules.Loading`: which files override rules

A file of overrides holds an object whose names are names of rules and whose values are numbers other than
the infinities and NaN, whole ones for the two rules that count something (`IsOverride`). A value that is
not such an object is an error that is reported (`failsFor_ofJson`). The error shows a value of the file, and
what was read from a file can be shown (`failsOnly_ofJson`).

The check that a value is finite makes a double of it. So a value that is an integer beyond the doubles is
a failure instead, for every rule, and this is the only one that comes from the value in a file
(`load_accepts_overrides`). For the rules that count, the integer itself would do
(`ofJson_override_tooLarge`).
-/

set_option autoImplicit false

namespace VennDiagram

namespace Json

/-- A number other than the infinities and NaN. -/
def IsFiniteNumber : Json → Prop
  | .int _ => True
  | .float x => x.isFinite = true
  | _ => False

/-- A number without a fraction. The unit of doubles is the least positive one, so that `2 ^ 1074` of them
are 1. -/
def IsWhole : Json → Prop
  | .int _ => True
  | .float x => ∃ i : Int, Binary64.units x = i * (2 ^ 1074 : Nat)
  | _ => False

/-- An integer that is at least the limit of the doubles in magnitude. -/
def IsTooLarge (v : Json) : Prop := ∃ i, v = .int i ∧ Binary64.integerLimit ≤ i.natAbs

end Json

namespace Rules

/-! ### What an override is made of -/

/-- A field with the name of a rule and a value for this rule. -/
structure FitsRule (field : String × Json) : Prop where
  known : ∃ k : Key, k.name = field.1
  finite : field.2.IsFiniteNumber
  whole : ∀ k : CountKey, (Key.count k).name = field.1 → field.2.IsWhole

/-- An object with the fields of an override. -/
def IsOverride (v : Json) : Prop := ∃ fields, v = .obj fields ∧ ∀ field ∈ fields, FitsRule field

/-- No value is an integer beyond the doubles. -/
def InRange (v : Json) : Prop := ∀ fields, v = .obj fields → ∀ field ∈ fields, ¬ field.2.IsTooLarge

section
variable {base r : Rules Float} {k : Key} {v : Json} {c : Change} {field : String × Json}

/-! ### Fields that are accepted -/

/-- A value that makes a change is one its rule can have. -/
theorem Makes.fitsRule (h : Makes k v c) : FitsRule (k.name, v) := by
  have hcount : ∀ {k : RealKey} {k' : CountKey}, (Key.count k').name ≠ (Key.real k).name := fun hname =>
    nomatch Key.name_injective hname
  cases h with
  | realInt h => exact ⟨⟨_, rfl⟩, trivial, fun _ _ => trivial⟩
  | realFloat h => exact ⟨⟨_, rfl⟩, h, fun _ hname => absurd hname hcount⟩
  | countInt h => exact ⟨⟨_, rfl⟩, trivial, fun _ _ => trivial⟩
  | countFloat h =>
    obtain ⟨hfinite, hunits⟩ := Binary64.toInt?_eq_some_iff.mp h
    exact ⟨⟨_, rfl⟩, hfinite, fun _ _ => ⟨_, hunits⟩⟩

/-- Such a value is no integer beyond the doubles. -/
theorem Makes.not_isTooLarge (h : Makes k v c) : ¬ v.IsTooLarge := by
  rintro ⟨i, rfl, hlarge⟩
  cases h with
  | realInt h => exact Nat.not_lt.mpr hlarge (Binary64.lt_integerLimit_of_ofInt? h)
  | countInt h => exact Nat.not_lt.mpr hlarge h

/-! ### Why a value is not accepted -/

variable {p q : Prop}

/-- Reading a change fails for an integer beyond the doubles, in a way of its own, or for a value that
its rule cannot have. -/
theorem failsFor_change (hlarge : v.IsTooLarge → p) (h : ¬ FitsRule (k.name, v) → q) :
    FailsFor .tooLarge p q (k.change v) := by
  cases v with
  | int i =>
    -- The double is made before the key is looked at, so a count can be too large as well.
    simp only [Key.change]
    cases hi : Binary64.ofInt? i with
    | none => exact .special_error (hlarge ⟨i, rfl, Binary64.ofInt?_eq_none_iff.mp hi⟩)
    | some x => cases k <;> exact .ok _
  | float x =>
    simp only [Key.change]
    split
    · rename_i hfinite
      cases k with
      | real k => exact .ok _
      | count k =>
        dsimp only
        cases hx : Binary64.toInt? x with
        | some i => exact .ok _
        | none =>
          refine .error OverrideError.noConfusion (h fun hfits => ?_)
          obtain ⟨i, hi⟩ := hfits.whole k rfl
          have hsome : Binary64.toInt? x = some i := Binary64.toInt?_eq_some_iff.mpr ⟨hfinite, hi⟩
          exact Option.some_ne_none i (hsome.symm.trans hx)
    · rename_i hfinite
      exact .error OverrideError.noConfusion (h fun hfits => hfinite hfits.finite)
  | _ => exact .error OverrideError.noConfusion (h fun hfits => hfits.finite)

/-- Reading a field fails for such an integer, or where no rule has its name and value. -/
theorem failsFor_changeOf (field : String × Json) :
    FailsFor .tooLarge field.2.IsTooLarge (¬ FitsRule field) (changeOf field) := by
  rw [changeOf]
  cases hk : Key.ofName? field.1 with
  | none =>
    refine .error OverrideError.noConfusion fun hfits => ?_
    obtain ⟨k, hname⟩ := hfits.known
    exact Option.some_ne_none k ((Key.ofName?_eq_some_iff.mpr hname).symm.trans hk)
  | some k =>
    refine failsFor_change id fun hnot hfits => hnot ?_
    rwa [Key.ofName?_eq_some_iff.mp hk]

/-- A value is not accepted if it is no override, or if a value in it is too large. -/
theorem failsFor_ofJson (base : Rules Float) (v : Json) :
    FailsFor .tooLarge (¬ InRange v) (¬ IsOverride v) (ofJson base v) := by
  cases v with
  | obj fields =>
    refine .map (.mapM fun field hfield => (failsFor_changeOf field).mono ?_ ?_)
    · exact fun hlarge hrange => hrange fields rfl field hfield hlarge
    · rintro hnot ⟨fields', heq, hfits⟩
      exact hnot (hfits field (Json.obj.inj heq ▸ hfield))
  | _ => exact .error OverrideError.noConfusion fun ⟨_, h, _⟩ => nomatch h

/-! ### The schema -/

/-- What is read as rules is an override in the range of the doubles, and its fields override the base.
-/
theorem exists_of_ofJson (h : ofJson base v = .ok r) :
    IsOverride v ∧ InRange v ∧ ∃ fields, v = .obj fields ∧ Overrides base fields r := by
  cases v with
  | obj fields =>
    obtain ⟨haccepted, hr⟩ := ofJson_obj_eq_ok_iff.mp h
    have hmakes : ∀ field ∈ fields, ∃ (k : Key) (c : Change), k.name = field.1 ∧ Makes k field.2 c := by
      intro field hfield
      obtain ⟨c, hc⟩ := haccepted field hfield
      obtain ⟨k, hname, hchange⟩ := changeOf_eq_ok_iff.mp hc
      exact ⟨k, c, hname, Key.makes_of_change hchange⟩
    refine ⟨⟨fields, rfl, fun field hfield => ?_⟩, fun fields' heq field hfield => ?_, fields, rfl, hr⟩
    · obtain ⟨k, c, hname, h⟩ := hmakes field hfield
      have hfits := h.fitsRule
      rwa [hname] at hfits
    · obtain ⟨k, c, -, h⟩ := hmakes field (Json.obj.inj heq ▸ hfield)
      exact h.not_isTooLarge
  | _ => exact nomatch h

/-- Rules are read exactly from an override in that range. -/
theorem exists_ofJson_iff : (∃ r, ofJson base v = .ok r) ↔ IsOverride v ∧ InRange v := by
  constructor
  · rintro ⟨r, h⟩
    obtain ⟨hoverride, hrange, -⟩ := exists_of_ofJson h
    exact ⟨hoverride, hrange⟩
  · rintro ⟨hoverride, hrange⟩
    exact (failsFor_ofJson base v).exists_ok (not_not.mpr hrange) (not_not.mpr hoverride)

/-- An override beyond that range fails in a way of its own. -/
theorem ofJson_eq_tooLarge (hoverride : IsOverride v) (hrange : ¬ InRange v) :
    ofJson base v = .error .tooLarge := by
  cases h : ofJson base v with
  | ok r => exact absurd (exists_of_ofJson h).2.1 hrange
  | error e => rw [(failsFor_ofJson base v).eq_special (not_not.mpr hoverride) h]

/-! ### Which errors are reported -/

/-- The value that the error shows, if it shows one, can be shown. -/
def OverrideError.Shows (depth : Nat) : OverrideError → Prop
  | .notANumber _ v | .notFinite _ v | .notWhole _ v => v.Showable depth
  | _ => True

variable {depth : Nat}

/-- A value that its rule cannot have is reported if it can be shown. -/
theorem failsOnly_change (h : v.Showable depth) : FailsOnly (OverrideError.Shows depth) (k.change v) := by
  -- The error for an integer that is too large shows nothing; all others show the value itself.
  cases v with
  | int i =>
    simp only [Key.change]
    cases Binary64.ofInt? i with
    | none => exact .error trivial
    | some x => cases k <;> exact .ok _
  | float x =>
    simp only [Key.change]
    split
    · cases k with
      | real k => exact .ok _
      | count k =>
        dsimp only
        cases Binary64.toInt? x with
        | some i => exact .ok _
        | none => exact .error h
    · exact .error h
  | _ => exact .error h

/-- The errors of a value that can be shown can be shown. -/
theorem failsOnly_ofJson (h : v.Showable depth) : FailsOnly (OverrideError.Shows depth) (ofJson base v) := by
  cases h with
  | obj hfields =>
    refine .map (.mapM fun field hfield => ?_)
    rw [changeOf]
    cases Key.ofName? field.1 with
    | some k => exact failsOnly_change (hfields field hfield).succ
    | none => exact .error trivial
  | _ => exact .error trivial

variable [Json.Limits]

/-- Such a report has a message exactly if the value can be shown. -/
theorem exists_mustBe_iff {name kind : String} :
    (∃ message, mustBe name kind v = .ok message) ↔ v.Showable Json.Limits.depth := by
  rw [← Json.exists_display_iff, mustBe]
  cases v.display <;> simp [Except.map]

/-- What shows a value that can be shown has a message. -/
theorem OverrideError.Shows.exists_message {e : OverrideError} (h : e.Shows Json.Limits.depth)
    (hlarge : e ≠ .tooLarge) : ∃ message, e.message = .ok message := by
  cases e with
  | notAnObject => exact ⟨_, rfl⟩
  | unknownRule name => exact ⟨_, rfl⟩
  | notANumber name v => exact exists_mustBe_iff.mpr h
  | notFinite name v => exact exists_mustBe_iff.mpr h
  | notWhole name v => exact exists_mustBe_iff.mpr h
  | tooLarge => exact absurd rfl hlarge

/-- An error is reported unless it is an integer beyond the doubles, if the value can be shown. -/
theorem report_of_ofJson {e : OverrideError} (hv : v.Showable Json.Limits.depth)
    (h : ofJson base v = .error e) :
    (∃ message, e.message = .ok message ∧ ∀ path, report path (.unfit e) = .ok (path ++ ": " ++ message)) ∨
      e = .tooLarge ∧ ¬ InRange v := by
  rcases failsFor_ofJson base v e h with hlarge | ⟨hne, -⟩
  · exact Or.inr hlarge
  · obtain ⟨message, hmessage⟩ := (failsOnly_ofJson hv e h).exists_message hne
    refine Or.inl ⟨message, hmessage, fun path => ?_⟩
    rw [report, Json.FileError.report, hmessage, Except.map]

/-! ### Files of overrides -/

end

end Rules
end VennDiagram
