import Mathlib
import VennDiagram.Geometry.Circle

/-!
# `VennDiagram.Proofs.Number.Distance`: what the geometry relies on

Nothing is assumed of the numbers of a layout but what these two classes say, and only where a theorem
asks for it:

* `SymmetricDistance`: the distance between two points does not depend on which of them comes first.
* `OrderedScalar`: of two numbers that can be compared with themselves, the one is less than the other or
  at least as great.

Doubles have both (the instances below). A difference is rounded by its magnitude, so exchanging the two
numbers changes nothing but its sign (`abs_sub_comm`), and the hypotenuse does not look at signs
(`hypotenuse_congr`). NaN is the only double that cannot be compared with itself.
-/

set_option autoImplicit false

namespace VennDiagram

/-- The distance between two points does not depend on which of them comes first. -/
class SymmetricDistance (α : Type) [Scalar α] : Prop where
  hypotenuse_sub_comm : ∀ x₁ x₂ y₁ y₂ : α,
    Scalar.hypotenuse (x₁ - x₂) (y₁ - y₂) = Scalar.hypotenuse (x₂ - x₁) (y₂ - y₁)

/-- Numbers that can be compared with themselves are in order. -/
class OrderedScalar (α : Type) [Scalar α] : Prop where
  lt_iff_not_le : ∀ x y : α, x ≤ x → y ≤ y → (x < y ↔ ¬ y ≤ x)

/-- Being too close goes both ways. -/
theorem tooClose_comm {α : Type} [Scalar α] [SymmetricDistance α] (distance x₁ y₁ x₂ y₂ : α) :
    tooClose distance x₁ y₁ x₂ y₂ = tooClose distance x₂ y₂ x₁ y₁ := by
  rw [tooClose, tooClose, SymmetricDistance.hypotenuse_sub_comm]

namespace Binary64

open Float.Model Float.Model.UnpackedFloat

/-! ### Differences -/

/-- The magnitude of a rounded number does not depend on its sign. -/
theorem abs_round (spec : Format) (s s' : Sign) (mantissa : Nat) (exponent : Int) :
    (UnpackedFloat.round spec s mantissa exponent).abs
      = (UnpackedFloat.round spec s' mantissa exponent).abs := by
  simp only [UnpackedFloat.round, roundWithAccuracy]
  split <;> rfl

/-- Scaling an integer and its opposite gives the same magnitude. -/
theorem abs_normalize_neg (spec : Format) (mantissa exponent : Int) (s : Sign) :
    (UnpackedFloat.normalize spec (-mantissa) exponent s).abs
      = (UnpackedFloat.normalize spec mantissa exponent s).abs := by
  rcases Int.lt_trichotomy mantissa 0 with h | rfl | h
  · have hneg : compare mantissa 0 = .lt := Int.compare_eq_lt.mpr h
    have hpos : compare (-mantissa) 0 = .gt := Int.compare_eq_gt.mpr (by omega)
    simp only [UnpackedFloat.normalize, hneg, hpos]
    exact abs_round spec _ _ _ _
  · rfl
  · have hpos : compare mantissa 0 = .gt := Int.compare_eq_gt.mpr h
    have hneg : compare (-mantissa) 0 = .lt := Int.compare_eq_lt.mpr (by omega)
    simp only [UnpackedFloat.normalize, hneg, hpos, Int.neg_neg]
    exact abs_round spec _ _ _ _

/-- Exchanging two numbers does not change the magnitude of their difference. -/
theorem abs_sub_comm (spec : Format) (u v : UnpackedFloat) :
    (UnpackedFloat.sub spec u v).abs = (UnpackedFloat.sub spec v u).abs := by
  cases u with
  | notANumber => cases v <;> rfl
  | infinity s =>
    cases v with
    | infinity s' => cases s <;> cases s' <;> rfl
    | _ => rfl
  | zero s =>
    cases v with
    | zero s' => cases s <;> cases s' <;> rfl
    | _ => rfl
  | finite s m e hm =>
    cases v with
    | finite s' m' e' hm' =>
      simp only [UnpackedFloat.sub, decreaseExponent]
      rw [← abs_normalize_neg, Int.neg_sub, Int.min_comm]
    | _ => rfl

/-! ### Fields -/

/-- The fields of a packed number depend on its magnitude only. -/
theorem fields_pack_abs (u : UnpackedFloat) :
    unpackExponent (UnpackedFloat.pack Format.binary64 u)
        = unpackExponent (UnpackedFloat.pack Format.binary64 u.abs) ∧
      unpackMantissa (UnpackedFloat.pack Format.binary64 u)
        = unpackMantissa (UnpackedFloat.pack Format.binary64 u.abs) := by
  cases u with
  | notANumber => exact ⟨rfl, rfl⟩
  | infinity s =>
    simp [UnpackedFloat.pack, UnpackedFloat.abs, packedInfinity, unpackExponent_packComponents,
      unpackMantissa_packComponents]
  | zero s =>
    simp [UnpackedFloat.pack, UnpackedFloat.abs, packedZero, unpackExponent_packComponents,
      unpackMantissa_packComponents]
  | finite s m e hm =>
    simp only [UnpackedFloat.pack, UnpackedFloat.abs, packedInfinity]
    split
    · simp [unpackExponent_packComponents, unpackMantissa_packComponents]
    · split <;> simp [unpackExponent_packComponents, unpackMantissa_packComponents]

/-- The exponent field that `parts` reads. -/
theorem toNat_exponentField (x : Float) :
    ((x.toBits >>> 52) &&& 0x7FF).toNat
      = (@unpackExponent Format.binary64 x.toBits.toBitVec).toNat := by
  have hfield : (@unpackExponent Format.binary64 x.toBits.toBitVec).toNat
      = (x.toBits.toNat >>> 52) % 2 ^ 11 := by
    simp [unpackExponent]
  rw [hfield, UInt64.toNat_and, UInt64.toNat_shiftRight]
  exact Nat.and_two_pow_sub_one_eq_mod _ 11

/-- The mantissa field that `parts` reads. -/
theorem toNat_mantissaField (x : Float) :
    (x.toBits &&& 0xFFFFFFFFFFFFF).toNat
      = (@unpackMantissa Format.binary64 x.toBits.toBitVec).toNat := by
  have hfield : (@unpackMantissa Format.binary64 x.toBits.toBitVec).toNat
      = x.toBits.toNat % 2 ^ 52 := by
    simp [unpackMantissa]
  rw [hfield, UInt64.toNat_and]
  exact Nat.and_two_pow_sub_one_eq_mod _ 52

/-- The parts without the sign. -/
def Parts.unsigned : Parts → Parts
  | .nan => .nan
  | .infinite _ => .infinite false
  | .finite _ mantissa exponent => .finite false mantissa exponent

/-- Doubles with the same fields have the same parts, up to the sign. -/
theorem unsigned_parts_congr {x y : Float}
    (hexponent : @unpackExponent Format.binary64 x.toBits.toBitVec
      = @unpackExponent Format.binary64 y.toBits.toBitVec)
    (hmantissa : @unpackMantissa Format.binary64 x.toBits.toBitVec
      = @unpackMantissa Format.binary64 y.toBits.toBitVec) :
    (parts x).unsigned = (parts y).unsigned := by
  have hfield : ((x.toBits >>> 52) &&& 0x7FF).toNat = ((y.toBits >>> 52) &&& 0x7FF).toNat := by
    rw [toNat_exponentField, toNat_exponentField, hexponent]
  have hstored : (x.toBits &&& 0xFFFFFFFFFFFFF).toNat = (y.toBits &&& 0xFFFFFFFFFFFFF).toNat := by
    rw [toNat_mantissaField, toNat_mantissaField, hmantissa]
  simp only [parts, hfield, hstored]
  split
  · split <;> simp only [Parts.unsigned]
  · split <;> simp only [Parts.unsigned]

/-- A difference and its opposite have the same parts, apart from the sign. -/
theorem unsigned_parts_sub_comm (x y : Float) : (parts (x - y)).unsigned = (parts (y - x)).unsigned := by
  obtain ⟨hexponent, hmantissa⟩ :=
    fields_pack_abs (UnpackedFloat.sub Format.binary64 x.toModel.unpack y.toModel.unpack)
  obtain ⟨hexponent', hmantissa'⟩ :=
    fields_pack_abs (UnpackedFloat.sub Format.binary64 y.toModel.unpack x.toModel.unpack)
  rw [abs_sub_comm] at hexponent hmantissa
  exact unsigned_parts_congr (hexponent.trans hexponent'.symm) (hmantissa.trans hmantissa'.symm)

/-- What parts that agree up to the sign are. -/
theorem Parts.cases_of_unsigned_eq {p q : Parts} (h : p.unsigned = q.unsigned) :
    (p = .nan ∧ q = .nan) ∨ (∃ s s', p = .infinite s ∧ q = .infinite s') ∨
      ∃ s s' m e, p = .finite s m e ∧ q = .finite s' m e := by
  cases p with
  | nan =>
    cases q with
    | nan => exact .inl ⟨rfl, rfl⟩
    | _ => cases h
  | infinite s =>
    cases q with
    | infinite s' => exact .inr (.inl ⟨s, s', rfl, rfl⟩)
    | _ => cases h
  | finite s m e =>
    cases q with
    | finite s' m' e' =>
      cases h
      exact .inr (.inr ⟨s, s', m, e, rfl, rfl⟩)
    | _ => cases h

/-- The hypotenuse does not look at the signs of its legs. -/
theorem hypotenuse_congr {x x' y y' : Float} (hx : (parts x).unsigned = (parts x').unsigned)
    (hy : (parts y).unsigned = (parts y').unsigned) : hypotenuse x y = hypotenuse x' y' := by
  rw [hypotenuse, hypotenuse]
  obtain ⟨hp, hp'⟩ | ⟨_, _, hp, hp'⟩ | ⟨_, _, _, _, hp, hp'⟩ := Parts.cases_of_unsigned_eq hx <;>
    obtain ⟨hq, hq'⟩ | ⟨_, _, hq, hq'⟩ | ⟨_, _, _, _, hq, hq'⟩ := Parts.cases_of_unsigned_eq hy <;>
    rw [hp, hp', hq, hq']

/-! ### Comparisons -/

/-- Exchanging two numbers turns the answer of a comparison around. -/
theorem compare_swap (u v : UnpackedFloat) : v.compare u = (u.compare v).map Ordering.swap := by
  cases u with
  | notANumber => cases v <;> rfl
  | infinity s =>
    cases v with
    | infinity s' => cases s <;> cases s' <;> rfl
    | _ => cases s <;> rfl
  | zero s =>
    cases v with
    | finite s' m e hm => cases s' <;> rfl
    | infinity s' => cases s' <;> rfl
    | _ => rfl
  | finite s m e hm =>
    cases v with
    | finite s' m' e' hm' =>
      have hexponent : compare e' e = (compare e e').swap := Std.OrientedCmp.eq_swap
      have hmantissa : compare m' m = (compare m m').swap := Std.OrientedCmp.eq_swap
      cases s <;> cases s' <;>
        simp [UnpackedFloat.compare, hexponent, hmantissa, Ordering.swap_then]
    | zero s' => cases s <;> rfl
    | infinity s' => cases s' <;> rfl
    | notANumber => rfl

/-- Only NaN cannot be compared. -/
theorem isSome_compare {u v : UnpackedFloat} (hu : u ≠ .notANumber) (hv : v ≠ .notANumber) :
    (u.compare v).isSome = true := by
  cases u with
  | notANumber => exact absurd rfl hu
  | infinity s =>
    cases v with
    | notANumber => exact absurd rfl hv
    | _ => cases s <;> rfl
  | zero s =>
    cases v with
    | notANumber => exact absurd rfl hv
    | zero => rfl
    | infinity s' => cases s' <;> rfl
    | finite s' => cases s' <;> rfl
  | finite s m e hm =>
    cases v with
    | notANumber => exact absurd rfl hv
    | finite s' => cases s <;> cases s' <;> rfl
    | infinity s' => cases s' <;> rfl
    | zero => cases s <;> rfl

/-- Doubles are compared as what they are unpacked to. -/
theorem lt_iff_unpack {x y : Float} :
    x < y ↔ x.toModel.unpack.lt y.toModel.unpack = true := decide_eq_true_iff

/-- So it is with the order that is not strict. -/
theorem le_iff_unpack {x y : Float} :
    x ≤ y ↔ x.toModel.unpack.le y.toModel.unpack = true := decide_eq_true_iff

/-- What is below itself is a number. -/
theorem unpack_ne_notANumber {x : Float} (hx : x ≤ x) : x.toModel.unpack ≠ .notANumber := by
  intro hnan
  rw [le_iff_unpack, hnan] at hx
  exact absurd hx (by decide)

/-- Numbers are strictly in order exactly if they are not in the opposite order. -/
theorem lt_iff_not_le {x y : Float} (hx : x ≤ x) (hy : y ≤ y) : x < y ↔ ¬ y ≤ x := by
  obtain ⟨o, ho⟩ := Option.isSome_iff_exists.mp
    (isSome_compare (unpack_ne_notANumber hx) (unpack_ne_notANumber hy))
  have hlt : x < y ↔ o = .lt := by
    rw [lt_iff_unpack, UnpackedFloat.lt, ho]
    cases o <;> decide
  have hle : y ≤ x ↔ o.swap.isLE = true := by
    rw [le_iff_unpack, UnpackedFloat.le, compare_swap, ho]
    rfl
  rw [hlt, hle]
  cases o <;> decide

end Binary64

instance : SymmetricDistance Float where
  hypotenuse_sub_comm x₁ x₂ y₁ y₂ :=
    Binary64.hypotenuse_congr (Binary64.unsigned_parts_sub_comm x₁ x₂)
      (Binary64.unsigned_parts_sub_comm y₁ y₂)

instance : OrderedScalar Float where
  lt_iff_not_le _ _ hx hy := Binary64.lt_iff_not_le hx hy

end VennDiagram
