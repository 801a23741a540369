import Mathlib
import VennDiagram.Proofs.Number.Order

/-!
# `VennDiagram.Proofs.Number.Doubles`: doubles on a line

Doubles are numbers that comparing tells apart as far as calculating does (`LinearScalar Float`).

* Comparing two numbers is comparing their places on the line, a place being the kind of number, then the
  exponent, then the mantissa (`le_iff_place`). So the order is transitive and total.
* Doubles that are alike are the same or both zero (`alike_iff`), and the sign of a zero shows in nothing
  but the sign of another zero (`Same.add`, `hypotenuse_eq_of_alike`).
* A sum or difference is no number only if an operand is none or both are infinite (`add_ne`), and a
  hypotenuse only if a leg is none (`hypotenuse_le_self`).
-/

set_option autoImplicit false

namespace VennDiagram

namespace Binary64

open Float.Model Float.Model.UnpackedFloat

/-! ### Places on the line -/

/-- The place of a number on the line: its kind, then its exponent, then its mantissa. -/
def place : UnpackedFloat → ℤ ×ₗ ℤ ×ₗ ℤ
  | .notANumber => toLex (0, toLex (0, 0))
  | .zero _ => toLex (0, toLex (0, 0))
  | .finite .positive mantissa exponent _ => toLex (1, toLex (exponent, mantissa))
  | .finite .negative mantissa exponent _ => toLex (-1, toLex (-exponent, -mantissa))
  | .infinity .positive => toLex (2, toLex (0, 0))
  | .infinity .negative => toLex (-2, toLex (0, 0))

/-- The exponents decide, and the mantissas only where the exponents are the same. -/
theorem isLE_then_iff (e e' : Int) (m m' : Nat) :
    ((compare e e').then (compare m m')).isLE = true ↔ e < e' ∨ e = e' ∧ m ≤ m' := by
  rw [Ordering.isLE_then_iff_or, Int.compare_eq_lt, Int.compare_eq_eq, Nat.isLE_compare]

/-- So they do for the order turned around, which is that of negative numbers. -/
theorem isGE_then_iff (e e' : Int) (m m' : Nat) :
    ((compare e e').then (compare m m')).isGE = true ↔ e' < e ∨ e = e' ∧ m' ≤ m := by
  rw [← Ordering.isLE_swap, Ordering.swap_then, Int.compare_swap, Nat.compare_swap, isLE_then_iff,
    @eq_comm Int e e']

/-- Of two infinities the places decide. -/
theorem infinity_le_iff (s s' : Sign) :
    (UnpackedFloat.infinity s).le (.infinity s') = true ↔ place (.infinity s) ≤ place (.infinity s') := by
  cases s <;> cases s' <;> decide

/-- So they do of two finite numbers, whatever their signs. -/
theorem finite_le_iff (s s' : Sign) {m m' : Nat} {e e' : Int} (hm : 0 < m) (hm' : 0 < m') :
    (finite s m e hm).le (finite s' m' e' hm') = true ↔
      place (finite s m e hm) ≤ place (finite s' m' e' hm') := by
  cases s <;> cases s' <;>
    simp [UnpackedFloat.le, UnpackedFloat.compare, place, Prod.Lex.toLex_le_toLex, isLE_then_iff,
      isGE_then_iff]

/-- Comparing two numbers is comparing their places. -/
theorem le_iff_place {u v : UnpackedFloat} (hu : u ≠ .notANumber) (hv : v ≠ .notANumber) :
    u.le v = true ↔ place u ≤ place v := by
  rcases u with s | _ | s | ⟨s, m, e, hm⟩ <;> rcases v with s' | _ | s' | ⟨s', m', e', hm'⟩
  case infinity.infinity => exact infinity_le_iff s s'
  case finite.finite => exact finite_le_iff s s' hm hm'
  case zero.zero => exact iff_of_true rfl (le_refl _)
  -- Of the rest, two numbers of different kinds are told apart by the first component.
  all_goals
    first
    | contradiction
    | cases s <;> cases s' <;> simp [UnpackedFloat.le, UnpackedFloat.compare, place, Prod.Lex.toLex_le_toLex]

/-! ### Numbers -/

/-- What can be compared is a number. -/
theorem ne_of_isSome_compare {u v : UnpackedFloat} (h : (u.compare v).isSome = true) :
    u ≠ .notANumber ∧ v ≠ .notANumber := by
  constructor
  · rintro rfl
    exact Bool.false_ne_true h
  · rintro rfl
    cases u <;> exact Bool.false_ne_true h

/-- Whatever is below something or above something is a number. -/
theorem unpack_ne_of_le {x y : Float} (h : x ≤ y) :
    x.toModel.unpack ≠ .notANumber ∧ y.toModel.unpack ≠ .notANumber :=
  ne_of_isSome_compare (Option.isSome_of_any (le_iff_unpack.mp h))

/-- So is what is strictly below or above. -/
theorem unpack_ne_of_lt {x y : Float} (h : x < y) :
    x.toModel.unpack ≠ .notANumber ∧ y.toModel.unpack ≠ .notANumber := by
  have hcompare := eq_of_beq (lt_iff_unpack.mp h)
  exact ne_of_isSome_compare (Option.isSome_of_eq_some hcompare)

/-- A double is below itself exactly if it is a number. -/
theorem le_self_iff {x : Float} : x ≤ x ↔ x.toModel.unpack ≠ .notANumber := by
  refine ⟨unpack_ne_notANumber, fun h => ?_⟩
  rw [le_iff_unpack, le_iff_place h h]

/-- The order of doubles is transitive, as that of their places is. -/
theorem le_trans {x y z : Float} (h : x ≤ y) (h' : y ≤ z) : x ≤ z := by
  obtain ⟨hx, hy⟩ := unpack_ne_of_le h
  obtain ⟨-, hz⟩ := unpack_ne_of_le h'
  rw [le_iff_unpack, le_iff_place hx hy] at h
  rw [le_iff_unpack, le_iff_place hy hz] at h'
  rw [le_iff_unpack, le_iff_place hx hz]
  exact h.trans h'

/-- Of two numbers one is below the other. Only what is no number is below nothing. -/
theorem le_total {x y : Float} (hx : x ≤ x) (hy : y ≤ y) : x ≤ y ∨ y ≤ x := by
  rw [le_self_iff] at hx hy
  rw [le_iff_unpack, le_iff_unpack, le_iff_place hx hy, le_iff_place hy hx]
  exact LinearOrder.le_total _ _

/-! ### Equal doubles -/

/-- The opposite sign gives the opposite integer. -/
theorem apply_neg (s : Sign) (n : Int) : (-s).apply n = -s.apply n := by
  cases s
  · exact (Int.neg_neg n).symm
  · rfl

/-- Taking away is adding the opposite, also where an operand is infinite or no number. -/
theorem sub_eq_add_neg (spec : Format) (u v : UnpackedFloat) :
    UnpackedFloat.sub spec u v = UnpackedFloat.add spec u v.neg := by
  rcases u with s | _ | s | ⟨s, m, e, hm⟩ <;> rcases v with s' | _ | s' | ⟨s', m', e', hm'⟩
  case finite.finite =>
    simp only [UnpackedFloat.sub, UnpackedFloat.neg, UnpackedFloat.add, apply_neg, Int.sub_eq_add_neg]
  all_goals rfl

/-- The two are the same, or both zero. -/
def Same (u v : UnpackedFloat) : Prop := u = v ∨ (∃ s, u = .zero s) ∧ ∃ s, v = .zero s

/-- The sum of two zeros is a zero, whatever their signs. -/
theorem exists_add_zero_zero (spec : Format) (s s' : Sign) :
    ∃ s'', UnpackedFloat.add spec (.zero s) (.zero s') = .zero s'' := by
  cases s <;> cases s' <;> exact ⟨_, rfl⟩

/-- The sign of a zero shows only in a sum of two zeros. -/
theorem Same.add {u u' v v' : UnpackedFloat} (hu : Same u u') (hv : Same v v') :
    Same (UnpackedFloat.add Format.binary64 u v) (UnpackedFloat.add Format.binary64 u' v') := by
  rcases hu with rfl | ⟨⟨s, rfl⟩, ⟨s', rfl⟩⟩
  · rcases hv with rfl | ⟨⟨t, rfl⟩, ⟨t', rfl⟩⟩
    · exact Or.inl rfl
    · cases u with
      | zero s => exact Or.inr ⟨exists_add_zero_zero _ _ _, exists_add_zero_zero _ _ _⟩
      | _ => exact Or.inl rfl
  · rcases hv with rfl | ⟨⟨t, rfl⟩, ⟨t', rfl⟩⟩
    · cases v with
      | zero s => exact Or.inr ⟨exists_add_zero_zero _ _ _, exists_add_zero_zero _ _ _⟩
      | _ => exact Or.inl rfl
    · exact Or.inr ⟨exists_add_zero_zero _ _ _, exists_add_zero_zero _ _ _⟩

/-- Turning the signs around keeps what is the same apart from the sign of a zero. -/
theorem Same.neg {u v : UnpackedFloat} (h : Same u v) : Same u.neg v.neg := by
  rcases h with rfl | ⟨⟨s, rfl⟩, ⟨s', rfl⟩⟩
  · exact Or.inl rfl
  · exact Or.inr ⟨⟨_, rfl⟩, ⟨_, rfl⟩⟩

/-- A magnitude does not show the sign of a zero. -/
theorem Same.abs_eq {u v : UnpackedFloat} (h : Same u v) : u.abs = v.abs := by
  rcases h with rfl | ⟨⟨s, rfl⟩, ⟨s', rfl⟩⟩
  · rfl
  · rfl

/-- Nor does packing make more of it than the sign of another zero. -/
theorem Same.unpack_pack {u v : UnpackedFloat} (h : Same u v) :
    Same (Float.Model.pack u).unpack (Float.Model.pack v).unpack := by
  rcases h with rfl | ⟨⟨s, rfl⟩, ⟨s', rfl⟩⟩
  · exact Or.inl rfl
  · exact Or.inr ⟨⟨s, unpack_packedZero⟩, ⟨s', unpack_packedZero⟩⟩

/-- Numbers that are below each other compare as equal. -/
theorem beq_of_le {u v : UnpackedFloat} (h : u.le v = true) (h' : v.le u = true) :
    u.beq v = true := by
  rw [UnpackedFloat.le] at h
  rw [UnpackedFloat.le, compare_swap] at h'
  rw [UnpackedFloat.beq]
  cases hcompare : u.compare v with
  | none =>
    rw [hcompare] at h
    exact absurd h Bool.false_ne_true
  | some o =>
    rw [hcompare] at h h'
    cases o with
    | eq => rfl
    | lt => exact absurd h' Bool.false_ne_true
    | gt => exact absurd h Bool.false_ne_true

/-- Equal numbers are the same, or zeros of either sign. -/
theorem same_of_beq {u v : UnpackedFloat} (h : u.beq v = true) : Same u v := by
  obtain ⟨-, -, heq | ⟨rfl, rfl⟩ | ⟨rfl, rfl⟩⟩ := (beq_iff_ne_notANumber_and_eq u v).mp h
  · exact Or.inl heq
  · exact Or.inr ⟨⟨_, rfl⟩, ⟨_, rfl⟩⟩
  · exact Or.inr ⟨⟨_, rfl⟩, ⟨_, rfl⟩⟩

/-- Doubles that are below each other are equal to the program. -/
theorem beq_of_equals {x y : Float} (h : Equals x y) : (x == y) = true :=
  beq_of_le (le_iff_unpack.mp h.1) (le_iff_unpack.mp h.2)

/-- A double is packed into the bits it was unpacked from. -/
theorem pack_unpack_toBits (x : Float) :
    UnpackedFloat.pack Format.binary64 x.toModel.unpack = x.toBits.toBitVec :=
  pack_unpack_of_valid x.toModel.valid

/-- Doubles that are alike are the same, or both zero. -/
theorem alike_iff {x y : Float} : Alike x y ↔ Same x.toModel.unpack y.toModel.unpack := by
  constructor
  · rintro (rfl | h)
    · exact Or.inl rfl
    · exact same_of_beq (beq_of_equals h)
  · rintro (h | ⟨⟨s, hx⟩, ⟨s', hy⟩⟩)
    · left
      rw [← Float.toBits_inj, ← UInt64.toBitVec_inj, ← pack_unpack_toBits, ← pack_unpack_toBits, h]
    · right
      rw [Equals, le_iff_unpack, le_iff_unpack, hx, hy]
      exact ⟨rfl, rfl⟩

/-- Doubles that are alike have sums that are alike. -/
theorem add_alike {x x' y y' : Float} (hx : Alike x x') (hy : Alike y y') :
    Alike (x + y) (x' + y') := by
  rw [alike_iff] at hx hy ⊢
  exact (hx.add hy).unpack_pack

/-- So have they differences. -/
theorem sub_alike {x x' y y' : Float} (hx : Alike x x') (hy : Alike y y') :
    Alike (x - y) (x' - y') := by
  rw [alike_iff] at hx hy ⊢
  have hsub := hx.add hy.neg
  rw [← sub_eq_add_neg, ← sub_eq_add_neg] at hsub
  exact hsub.unpack_pack

/-- Doubles of one magnitude have the same parts, apart from the sign. -/
theorem unsigned_parts_of_abs_eq {x y : Float} (h : x.toModel.unpack.abs = y.toModel.unpack.abs) :
    (parts x).unsigned = (parts y).unsigned := by
  obtain ⟨hexponent, hmantissa⟩ := fields_pack_abs x.toModel.unpack
  obtain ⟨hexponent', hmantissa'⟩ := fields_pack_abs y.toModel.unpack
  rw [h, ← hexponent', pack_unpack_toBits, pack_unpack_toBits] at hexponent
  rw [h, ← hmantissa', pack_unpack_toBits, pack_unpack_toBits] at hmantissa
  exact unsigned_parts_congr hexponent hmantissa

/-- A hypotenuse only takes the magnitudes of its legs, and so does not show the sign of a zero. -/
theorem hypotenuse_eq_of_alike {x x' y y' : Float} (hx : Alike x x') (hy : Alike y y') :
    hypotenuse x y = hypotenuse x' y' :=
  hypotenuse_congr (unsigned_parts_of_abs_eq (alike_iff.mp hx).abs_eq)
    (unsigned_parts_of_abs_eq (alike_iff.mp hy).abs_eq)

/-! ### Where numbers come from -/

/-- Packing a number gives no NaN. -/
theorem pack_ne_packedNaN {u : UnpackedFloat} (hu : u ≠ .notANumber) :
    UnpackedFloat.pack Format.binary64 u ≠ packedNaN Format.binary64 := by
  have hinfinity : ∀ s, packedInfinity Format.binary64 s ≠ packedNaN Format.binary64 := by
    intro s
    cases s <;> decide
  -- The exponent field of NaN has all bits set.
  have hfield : ∀ s exponent mantissa, exponent ≠ -1#_ →
      packComponents Format.binary64 s exponent mantissa ≠ packedNaN Format.binary64 := by
    intro s exponent mantissa hne h
    have hexponent := congrArg unpackExponent h
    rw [packedNaN, unpackExponent_packComponents, unpackExponent_packComponents] at hexponent
    exact hne hexponent
  cases u with
  | notANumber => exact absurd rfl hu
  | infinity s => exact hinfinity s
  | zero s => exact hfield s 0 0 (by decide)
  | finite s m e hm =>
    rw [UnpackedFloat.pack]
    split
    · exact hinfinity s
    · rename_i hsmall
      split
      · refine hfield s _ _ fun h => ?_
        generalize (e + _ + _).toNat = biased at hsmall h
        have hbiased : biased + 1 < 2048 := not_le.mp hsmall
        have hones : biased % 2048 = 2047 := congrArg BitVec.toNat h
        omega
      · exact hfield s _ _ (by decide)

/-- Packing a number gives a number. -/
theorem unpack_pack_ne {u : UnpackedFloat} (hu : u ≠ .notANumber) :
    (Float.Model.pack u).unpack ≠ .notANumber := by
  intro h
  exact pack_ne_packedNaN hu ((unpack_eq_notANumber_iff_of_valid (Float.Model.pack u).valid).mp h)

/-- Scaling an integer gives a number, or one of the infinities. -/
theorem normalize_ne (spec : Format) (mantissa exponent : Int) (s : Sign) :
    UnpackedFloat.normalize spec mantissa exponent s ≠ .notANumber := by
  have hround : ∀ s m e, UnpackedFloat.round spec s m e ≠ .notANumber := by
    intro s m e
    simp only [UnpackedFloat.round, roundWithAccuracy]
    split <;> exact UnpackedFloat.noConfusion
  rw [UnpackedFloat.normalize]
  split
  · exact hround _ _ _
  · exact UnpackedFloat.noConfusion
  · exact hround _ _ _

/-- The sum of two numbers is a number, unless both are infinite. -/
theorem add_ne {u v : UnpackedFloat} (hu : u ≠ .notANumber) (hv : v ≠ .notANumber)
    (hfinite : u.isFinite = true ∨ v.isFinite = true) :
    UnpackedFloat.add Format.binary64 u v ≠ .notANumber := by
  rcases u with s | _ | s | ⟨s, m, e, hm⟩ <;> rcases v with s' | _ | s' | ⟨s', m', e', hm'⟩
  case finite.finite => exact normalize_ne _ _ _ _
  case infinity.infinity => simp [UnpackedFloat.isFinite] at hfinite
  case zero.zero => cases s <;> cases s' <;> exact UnpackedFloat.noConfusion
  all_goals
    first
    | contradiction
    | exact UnpackedFloat.noConfusion

/-- The opposite of a number is one. -/
theorem neg_ne {u : UnpackedFloat} (hu : u ≠ .notANumber) : u.neg ≠ .notANumber := by
  cases u with
  | notANumber => exact absurd rfl hu
  | _ => exact UnpackedFloat.noConfusion

/-- It is finite exactly if the number is. -/
theorem isFinite_neg (u : UnpackedFloat) : u.neg.isFinite = u.isFinite := by
  cases u <;> rfl

/-- Finite doubles are numbers. -/
theorem unpack_ne_of_isFinite {x : Float} (hx : x.isFinite = true) :
    x.toModel.unpack ≠ .notANumber := by
  intro hnan
  have hunpacked : x.toModel.unpack.isFinite = true := hx
  rw [hnan] at hunpacked
  exact Bool.false_ne_true hunpacked

/-- So finite doubles are below themselves. -/
theorem le_self_of_isFinite {x : Float} (hx : x.isFinite = true) : x ≤ x :=
  le_self_iff.mpr (unpack_ne_of_isFinite hx)

/-- The sum of finite doubles is a number, be it infinite. -/
theorem add_le_self {x y : Float} (hx : x.isFinite = true) (hy : y.isFinite = true) :
    x + y ≤ x + y :=
  le_self_iff.mpr (unpack_pack_ne
    (add_ne (unpack_ne_of_isFinite hx) (unpack_ne_of_isFinite hy) (Or.inl hx)))

/-- So is the difference of two numbers of which one is finite. -/
theorem sub_le_self {x y : Float} (hx : x ≤ x) (hy : y ≤ y)
    (hfinite : x.isFinite = true ∨ y.isFinite = true) : x - y ≤ x - y := by
  have hne : UnpackedFloat.sub Format.binary64 x.toModel.unpack y.toModel.unpack ≠ .notANumber := by
    rw [sub_eq_add_neg]
    refine add_ne (le_self_iff.mp hx) (neg_ne (le_self_iff.mp hy)) ?_
    rw [isFinite_neg]
    exact hfinite
  exact le_self_iff.mpr (unpack_pack_ne hne)

/-- A number is not taken apart as something that is none. -/
theorem parts_ne_nan {x : Float} (hx : x.toModel.unpack ≠ .notANumber) : parts x ≠ .nan := by
  intro hparts
  simp only [parts] at hparts
  split at hparts
  · split at hparts
    · exact absurd hparts Parts.noConfusion
    -- The parts are no number only if the field is all ones and something is stored, and then what is
    -- unpacked is none either.
    · rename_i hfield hstored
      rw [toNat_exponentField] at hfield
      rw [toNat_mantissaField] at hstored
      have hexponent : @unpackExponent Format.binary64 x.toBits.toBitVec = -1#11 :=
        BitVec.eq_of_toNat_eq hfield
      have hmantissa : @unpackMantissa Format.binary64 x.toBits.toBitVec ≠ 0#52 := by
        intro h
        exact hstored (congrArg BitVec.toNat h)
      refine hx ?_
      show UnpackedFloat.unpack Format.binary64 x.toBits.toBitVec = .notANumber
      rw [UnpackedFloat.unpack]
      simp only [hexponent, if_true, hmantissa, if_false]
  · split at hparts <;> exact absurd hparts Parts.noConfusion

/-- Below the bits of infinity there is no NaN. -/
theorem unpack_ofNat_ne {magnitude : Nat} (h : magnitude < 0x7FF <<< storedBits) :
    UnpackedFloat.unpack Format.binary64 (UInt64.ofNat magnitude).toBitVec ≠ .notANumber := by
  have hfield : (@unpackExponent Format.binary64 (UInt64.ofNat magnitude).toBitVec).toNat
      = ((UInt64.ofNat magnitude).toNat >>> 52) % 2 ^ 11 := by
    simp [unpackExponent]
  have hexponent : @unpackExponent Format.binary64 (UInt64.ofNat magnitude).toBitVec ≠ -1#11 := by
    intro hones
    rw [hones, UInt64.toNat_ofNat', Nat.shiftRight_eq_div_pow] at hfield
    rw [storedBits, Nat.shiftLeft_eq] at h
    have hfield : 2047 = magnitude % 2 ^ 64 / 2 ^ 52 % 2 ^ 11 := hfield
    omega
  rw [UnpackedFloat.unpack]
  simp only [hexponent, if_false]
  split
  · split <;> exact UnpackedFloat.noConfusion
  · exact UnpackedFloat.noConfusion

/-- Infinity is a number. -/
theorem infinity_le_self : infinity false ≤ infinity false := by decide +kernel

/-- So is whatever is put together from a mantissa and an exponent. -/
theorem assemble_le_self (mantissa : Nat) (exponent : Int) :
    assemble false mantissa exponent ≤ assemble false mantissa exponent := by
  simp only [assemble]
  generalize (if mantissa < Nat.pow 2 storedBits then mantissa else _) = magnitude
  split
  · exact infinity_le_self
  · rename_i hsmall
    rw [le_self_iff, if_neg Bool.false_ne_true, UInt64.zero_or]
    exact unpack_pack_ne (unpack_ofNat_ne (not_le.mp hsmall))

/-- So is a rounded square root. -/
theorem roundRoot_le_self (n : Nat) (exponent : Int) : roundRoot n exponent ≤ roundRoot n exponent := by
  simp only [roundRoot, round]
  split
  · exact assemble_le_self _ _
  · split <;> exact assemble_le_self _ _

/-- The hypotenuse over two numbers is a number, be it infinite. -/
theorem hypotenuse_le_self {x y : Float} (hx : x ≤ x) (hy : y ≤ y) :
    hypotenuse x y ≤ hypotenuse x y := by
  have hpartsx := parts_ne_nan (le_self_iff.mp hx)
  have hpartsy := parts_ne_nan (le_self_iff.mp hy)
  rw [hypotenuse]
  cases hleg : parts x with
  | nan => exact absurd hleg hpartsx
  | infinite => exact infinity_le_self
  | finite =>
    cases hleg' : parts y with
    | nan => exact absurd hleg' hpartsy
    | infinite => exact infinity_le_self
    | finite => exact roundRoot_le_self _ _

end Binary64

instance : LinearScalar Float where
  IsFinite x := x.isFinite = true
  le_self_of_le h := (Binary64.unpack_ne_of_le h).imp Binary64.le_self_iff.mpr Binary64.le_self_iff.mpr
  le_self_of_lt h := (Binary64.unpack_ne_of_lt h).imp Binary64.le_self_iff.mpr Binary64.le_self_iff.mpr
  le_trans := Binary64.le_trans
  le_total := Binary64.le_total
  add_alike := Binary64.add_alike
  sub_alike := Binary64.sub_alike
  hypotenuse_eq := Binary64.hypotenuse_eq_of_alike
  scanBound_eq _ _ _ := rfl
  le_self_of_isFinite := Binary64.le_self_of_isFinite
  add_le_self hx hy := Binary64.add_le_self hx hy
  sub_le_self := Binary64.sub_le_self
  hypotenuse_le_self := Binary64.hypotenuse_le_self

end VennDiagram
