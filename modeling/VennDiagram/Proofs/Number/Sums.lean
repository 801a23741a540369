import Mathlib
import VennDiagram.Proofs.Number.Rounding

/-!
# `VennDiagram.Proofs.Number.Sums`: a greater summand makes a greater sum

A sum of two finite doubles is rounded to the double nearest to the sum of the two numbers (`place_add`).
That depends on the sum only, and greater sums are rounded to greater doubles, so adding a finite double
keeps the order (`add_le_add`).

A sum with an infinite summand is infinite or no number, so a sum that is less than anything is a number
below positive infinity. That leaves negative infinity, and what is added to it does not matter
(`add_le_add_of_lt`). So doubles have what a threshold needs that is lowered (`OrderedAddition Float`).
-/

set_option autoImplicit false

namespace VennDiagram

namespace Binary64

open Float.Model Float.Model.UnpackedFloat

/-! ### Packing -/

/-- The bits of an infinity are unpacked as one. -/
theorem unpack_packedInfinity (s : Sign) :
    UnpackedFloat.unpack Format.binary64 (packedInfinity Format.binary64 s) = .infinity s := by
  simp [UnpackedFloat.unpack, packedInfinity]

/-- The bits of a mantissa that has all its bits: the first is not stored. -/
theorem unpack_normal (s : Sign) {m n : Nat} (hfull : 2 ^ 52 ≤ m) (hlt : m < 2 ^ 53) (hn : n ≤ 2045) :
    UnpackedFloat.unpack Format.binary64
        (packComponents Format.binary64 s (BitVec.ofNat 11 (n + 1)) (BitVec.ofNat 52 m))
      = .finite s m ((n : Int) - 1074) (by omega) := by
  have hfield : (BitVec.ofNat 11 (n + 1)).toNat = n + 1 := Nat.mod_eq_of_lt (by omega)
  -- The field is neither of the two that do not stand for normal numbers.
  have hones : BitVec.ofNat 11 (n + 1) ≠ -1#11 := by
    intro h
    rw [h] at hfield
    have hones : 2047 = n + 1 := hfield
    omega
  have hzero : BitVec.ofNat 11 (n + 1) ≠ 0#11 := by
    intro h
    rw [h] at hfield
    exact absurd hfield (by simp)
  have hmantissa : (1#1 ++ BitVec.ofNat 52 m).toNat = m := by
    rw [BitVec.toNat_append, ← Nat.shiftLeft_add_eq_or_of_lt (BitVec.isLt _), Nat.shiftLeft_eq]
    simp only [BitVec.toNat_ofNat]
    omega
  simp only [UnpackedFloat.unpack, unpackExponent_packComponents, unpackMantissa_packComponents,
    unpackSign_packComponents, Sign.ofBitVec_toBitVec, hones, hzero, if_false, hmantissa, hfield]
  congr 1
  simp only [Format.exponentBias]
  omega

/-- The bits of a mantissa that has not all its bits: the exponent is the least one. -/
theorem unpack_subnormal (s : Sign) {m : Nat} (hpos : 0 < m) (hlt : m < 2 ^ 52) :
    UnpackedFloat.unpack Format.binary64 (packComponents Format.binary64 s 0#11 (BitVec.ofNat 52 m))
      = .finite s m (-1074) hpos := by
  have hones : (0#11) ≠ -1#11 := by decide
  have hmantissa : (BitVec.ofNat 52 m).toNat = m := Nat.mod_eq_of_lt hlt
  have hne : BitVec.ofNat 52 m ≠ 0#52 := by
    intro h
    rw [h] at hmantissa
    exact hpos.ne hmantissa
  simp only [UnpackedFloat.unpack, unpackExponent_packComponents, unpackMantissa_packComponents,
    unpackSign_packComponents, Sign.ofBitVec_toBitVec, hones, hne, if_false, if_true, hmantissa]
  rfl

/-- What packing leaves of a canonical number: too great a number becomes infinite. -/
def packable (s : Sign) (m n : Nat) : UnpackedFloat := if n ≤ 2045 then multiple s m n else .infinity s

/-- A canonical number survives packing, unless it is too great. -/
theorem unpack_pack_multiple (s : Sign) {m n : Nat} (h : Canonical m n) :
    (Float.Model.pack (multiple s m n)).unpack = packable s m n := by
  show UnpackedFloat.unpack Format.binary64 (UnpackedFloat.pack Format.binary64 (multiple s m n)) = _
  rcases Nat.eq_zero_or_pos m with rfl | hpos
  · obtain rfl : n = 0 := h.full.resolve_right (by decide)
    exact unpack_packedZero
  · have hfield : ((n : Int) - 1074 + (Format.binary64.exponentBias : Int)
        + (Format.binary64.mantissaBitsWithoutImplicit : Int)).toNat = n + 1 := by
      have hbias : (Format.binary64.exponentBias : Int) = 1023 := rfl
      have hbits : (Format.binary64.mantissaBitsWithoutImplicit : Int) = 52 := rfl
      rw [hbias, hbits]
      omega
    have hlog : m.log2 + 1 = Format.binary64.mantissaBits ↔ 2 ^ 52 ≤ m := by
      have hbits : Format.binary64.mantissaBits = 53 := rfl
      have hlt := (Nat.log2_lt hpos.ne').mpr h.lt
      rw [← Nat.le_log2 hpos.ne', hbits]
      omega
    -- The exponent field is `n + 1`, unless the leading bit is missing. By canonicity that only happens
    -- if `n` is zero, and then the field is zero too.
    simp only [multiple, packable, hpos.ne', dif_neg, not_false_eq_true, UnpackedFloat.pack, hfield, hlog]
    split
    · rename_i hgreat
      rw [if_neg (by simp at hgreat; omega)]
      exact unpack_packedInfinity s
    · rename_i hsmall
      have hn : n ≤ 2045 := by simp at hsmall; omega
      rw [if_pos hn]
      split
      · rename_i hfull
        exact unpack_normal s hfull h.lt hn
      · rename_i hshort
        obtain rfl : n = 0 := h.full.resolve_right hshort
        exact unpack_subnormal s hpos (Nat.not_le.mp hshort)

/-! ### Order -/

/-- The opposite number is at the opposite place. -/
theorem neg_place (u : UnpackedFloat) : -place u = place u.neg := by
  rcases u with (_ | _) | _ | _ | ⟨_ | _, m, e, hm⟩
  case finite.negative =>
    show toLex (-(-1 : ℤ), toLex (- -e, - -(m : ℤ))) = toLex ((1 : ℤ), toLex (e, (m : ℤ)))
    simp
  all_goals rfl

/-- The opposite of a multiple has the opposite sign. -/
theorem neg_multiple (s : Sign) (m n : Nat) : (multiple s m n).neg = multiple (-s) m n := by
  rw [multiple, multiple]
  split <;> rfl

/-- Both zeros are in the middle of the line. -/
theorem place_multiple_zero (s : Sign) (n : Nat) : place (multiple s 0 n) = 0 := rfl

/-- A positive number is placed by its exponent, then by its mantissa. -/
theorem place_multiple {m : Nat} (hm : 0 < m) (n : Nat) :
    place (multiple .positive m n) = toLex (1, toLex ((n : Int) - 1074, (m : Int))) := by
  rw [multiple, dif_neg hm.ne']
  rfl

/-- A positive number is above zero. -/
theorem place_multiple_pos {m : Nat} (hm : 0 < m) (n : Nat) : 0 < place (multiple .positive m n) := by
  rw [place_multiple hm]
  exact Prod.Lex.toLex_lt_toLex.mpr (Or.inl Int.one_pos)

/-- A number without a minus is not below zero. -/
theorem place_multiple_nonneg (m n : Nat) : 0 ≤ place (multiple .positive m n) := by
  rcases Nat.eq_zero_or_pos m with rfl | hm
  · exact (place_multiple_zero _ _).ge
  · exact (place_multiple_pos hm n).le

/-- Canonical numbers are on the line where they should be. -/
theorem place_multiple_le_iff {m n m' n' : Nat} (h : Canonical m n) (h' : Canonical m' n') :
    place (multiple .positive m n) ≤ place (multiple .positive m' n') ↔ m * 2 ^ n ≤ m' * 2 ^ n' := by
  rcases Nat.eq_zero_or_pos m with rfl | hm
  · rw [place_multiple_zero, Nat.zero_mul]
    exact iff_of_true (place_multiple_nonneg m' n') (Nat.zero_le _)
  · rcases Nat.eq_zero_or_pos m' with rfl | hm'
    · rw [place_multiple_zero, Nat.zero_mul]
      exact iff_of_false (not_le.mpr (place_multiple_pos hm n))
        (Nat.not_le.mpr (Nat.mul_pos hm (Nat.two_pow_pos n)))
    · rw [place_multiple hm, place_multiple hm', h.le_iff h']
      simp [Prod.Lex.toLex_le_toLex]

/-- The number `± m * 2 ^ n`. -/
def signed (s : Sign) (m n : Nat) : Int := s.apply ((m * 2 ^ n : Nat) : Int)

/-- Numbers of either sign that are in order on the line are in order as integers. -/
theorem signed_le_of_place_le {s s' : Sign} {m n m' n' : Nat} (h : Canonical m n)
    (h' : Canonical m' n') (hle : place (multiple s m n) ≤ place (multiple s' m' n')) :
    signed s m n ≤ signed s' m' n' := by
  have hzero : Canonical 0 0 := ⟨by decide, Or.inl rfl⟩
  have hnonpos {m n : Nat} (h : Canonical m n) (hle : place (multiple .positive m n) ≤ 0) :
      m * 2 ^ n = 0 := by
    rw [← place_multiple_zero .positive 0, place_multiple_le_iff h hzero, Nat.zero_mul] at hle
    exact Nat.le_zero.mp hle
  have hneg (m n : Nat) : place (multiple .negative m n) = -place (multiple .positive m n) := by
    rw [neg_place, neg_multiple]
    rfl
  cases s with
  | negative =>
    cases s' with
    | negative =>
      rw [hneg, hneg, neg_le_neg_iff, place_multiple_le_iff h' h] at hle
      simp only [signed, Sign.apply]
      omega
    | positive =>
      simp only [signed, Sign.apply]
      omega
  | positive =>
    cases s' with
    | negative =>
      -- A positive number is not below a negative one, so both are zero.
      rw [hneg] at hle
      have hplace := place_multiple_nonneg m n
      have hplace' := place_multiple_nonneg m' n'
      have hm := hnonpos h (hle.trans (neg_nonpos.mpr hplace'))
      have hm' := hnonpos h' (neg_nonneg.mp (hplace.trans hle))
      simp only [signed, Sign.apply, hm, hm']
      omega
    | positive =>
      rw [place_multiple_le_iff h h'] at hle
      simp only [signed, Sign.apply]
      exact_mod_cast hle

/-- Nothing is placed above positive infinity. -/
theorem place_le_infinity (u : UnpackedFloat) : place u ≤ place (.infinity .positive) := by
  rcases u with (_ | _) | _ | _ | ⟨_ | _, m, e, hm⟩ <;> simp [place, Prod.Lex.toLex_le_toLex]

/-- Nothing is placed below negative infinity. -/
theorem infinity_le_place (u : UnpackedFloat) : place (.infinity .negative) ≤ place u := by
  rcases u with (_ | _) | _ | _ | ⟨_ | _, m, e, hm⟩ <;> simp [place, Prod.Lex.toLex_le_toLex]

/-- Packing keeps the order. -/
theorem place_packable_le {m n m' n' : Nat} (h : Canonical m n) (h' : Canonical m' n')
    (hle : m * 2 ^ n ≤ m' * 2 ^ n') :
    place (packable .positive m n) ≤ place (packable .positive m' n') := by
  have hexponent : n ≤ n' := by
    rcases (h.le_iff h').mp hle with hlt | ⟨rfl, -⟩
    · exact hlt.le
    · exact le_refl _
  rw [packable, packable]
  by_cases hn' : n' ≤ 2045
  · rw [if_pos hn', if_pos (hexponent.trans hn')]
    exact (place_multiple_le_iff h h').mpr hle
  · rw [if_neg hn']
    split
    · exact place_le_infinity _
    · exact le_refl _

/-! ### Sums -/

/-- The double nearest to a multiple of the least positive double. -/
def nearestMagnitude (s : Sign) (k : Nat) : UnpackedFloat :=
  let kept := nearest k (excess k)
  packable s (kept / 2 ^ excess kept) (excess k + excess kept)

/-- The double nearest to an integer multiple of the least positive double. -/
def nearestDouble (k : Int) : UnpackedFloat :=
  if 0 ≤ k then nearestMagnitude .positive k.toNat else nearestMagnitude .negative (-k).toNat

/-- Rounding a multiple and packing it gives the double nearest to it. -/
theorem unpack_pack_round (s : Sign) {m : Nat} (hm : 0 < m) (n : Nat) :
    (Float.Model.pack (UnpackedFloat.round Format.binary64 s m ((n : Int) - 1074))).unpack
      = nearestMagnitude s (m * 2 ^ n) := by
  rw [round_eq s hm n]
  exact unpack_pack_multiple s (canonical_rounded (m * 2 ^ n)).1

/-- What a sum of whole numbers is normalized to. -/
theorem unpack_pack_normalize (k : Int) (n : Nat) :
    (Float.Model.pack (UnpackedFloat.normalize Format.binary64 k ((n : Int) - 1074) .positive)).unpack
      = nearestDouble (k * 2 ^ n) := by
  have hpow : (0 : Int) < 2 ^ n := Int.pow_pos (by decide)
  rcases Int.lt_trichotomy k 0 with hk | rfl | hk
  · have hneg : k * 2 ^ n < 0 := Int.mul_neg_of_neg_of_pos hk hpow
    have hmagnitude : (-(k * 2 ^ n)).toNat = (-k).toNat * 2 ^ n := by
      rw [← Int.neg_mul]
      exact Int.toNat_mul (by omega) hpow.le
    rw [UnpackedFloat.normalize, Int.compare_eq_lt.mpr hk, nearestDouble, if_neg (by omega), hmagnitude]
    exact unpack_pack_round _ (by omega) n
  · rw [Int.zero_mul]
    exact unpack_packedZero
  · have hpos : 0 < k * 2 ^ n := Int.mul_pos hk hpow
    have hmagnitude : (k * 2 ^ n).toNat = k.toNat * 2 ^ n := Int.toNat_mul hk.le hpow.le
    rw [UnpackedFloat.normalize, Int.compare_eq_gt.mpr hk, nearestDouble, if_pos hpos.le, hmagnitude]
    exact unpack_pack_round _ (by omega) n

/-- A negative number is rounded as its opposite is. -/
theorem place_nearestMagnitude_negative (k : Nat) :
    place (nearestMagnitude .negative k) = -place (nearestMagnitude .positive k) := by
  rw [neg_place, nearestMagnitude, nearestMagnitude, packable, packable]
  split
  · rw [neg_multiple]
    rfl
  · rfl

/-- The nearest double grows with the number that is rounded. -/
theorem place_nearestMagnitude_le {k k' : Nat} (h : k ≤ k') :
    place (nearestMagnitude .positive k) ≤ place (nearestMagnitude .positive k') := by
  obtain ⟨hcanonical, hrounded⟩ := canonical_rounded k
  obtain ⟨hcanonical', hrounded'⟩ := canonical_rounded k'
  refine place_packable_le hcanonical hcanonical' ?_
  rw [hrounded, hrounded']
  exact rounded_le_rounded h

/-- Greater numbers have greater doubles nearest to them. -/
theorem place_nearestDouble_le {k k' : Int} (h : k ≤ k') :
    place (nearestDouble k) ≤ place (nearestDouble k') := by
  have hnonneg : ∀ k : Nat, 0 ≤ place (nearestMagnitude .positive k) :=
    fun k => place_nearestMagnitude_le (Nat.zero_le k)
  rw [nearestDouble, nearestDouble]
  by_cases hk : 0 ≤ k
  · rw [if_pos hk, if_pos (hk.trans h)]
    exact place_nearestMagnitude_le (by omega)
  · rw [if_neg hk, place_nearestMagnitude_negative]
    by_cases hk' : 0 ≤ k'
    · rw [if_pos hk']
      exact (neg_nonpos.mpr (hnonneg _)).trans (hnonneg _)
    · rw [if_neg hk', place_nearestMagnitude_negative, neg_le_neg_iff]
      exact place_nearestMagnitude_le (by omega)

/-- A canonical number does not round. -/
theorem nearestMagnitude_eq_packable (s : Sign) {m n : Nat} (h : Canonical m n) :
    nearestMagnitude s (m * 2 ^ n) = packable s m n := by
  have hexcess : excess (m * 2 ^ n) = n := by
    rcases h.full with rfl | hfull
    · rw [Nat.pow_zero, Nat.mul_one]
      exact excess_eq_zero h.lt
    · have hlog : m.log2 = 52 := (Nat.log2_eq_iff (by omega)).mpr ⟨hfull, h.lt⟩
      rw [excess, log2_mul_pow (by omega), hlog]
      omega
  have hkept : nearest (m * 2 ^ n) n = m := by
    have hzeros := nearest_mul_pow m 0 n
    rwa [Nat.zero_add, nearest_zero] at hzeros
  rw [nearestMagnitude, hexcess, hkept, excess_eq_zero h.lt, Nat.pow_zero, Nat.div_one, Nat.add_zero]

/-- A double is the one nearest to itself. -/
theorem nearestMagnitude_of_canonical (s : Sign) {m n : Nat} (h : Canonical m n) (hn : n ≤ 2045) :
    nearestMagnitude s (m * 2 ^ n) = multiple s m n := by
  rw [nearestMagnitude_eq_packable s h, packable, if_pos hn]

/-- A canonical number of either sign is the double nearest to itself. -/
theorem place_nearestDouble_signed (s : Sign) {m n : Nat} (h : Canonical m n) (hn : n ≤ 2045) :
    place (nearestDouble (signed s m n)) = place (multiple s m n) := by
  rw [nearestDouble, signed]
  cases s with
  | positive =>
    rw [Sign.apply, if_pos (Int.natCast_nonneg _), Int.toNat_natCast, nearestMagnitude_of_canonical _ h hn]
  | negative =>
    rw [Sign.apply, Int.neg_neg, Int.toNat_natCast]
    split
    · -- There is no negative zero among the numbers, but the two zeros have one place.
      rename_i hzero
      obtain rfl : m = 0 := (Nat.mul_eq_zero.mp (by omega)).resolve_right (Nat.two_pow_pos n).ne'
      obtain rfl : n = 0 := h.full.resolve_right (by decide)
      rfl
    · rw [nearestMagnitude_of_canonical _ h hn]

/-- Two doubles that are not zero are added as multiples of the lesser of their powers of two. -/
theorem add_multiple (s s' : Sign) {m m' : Nat} (hm : 0 < m) (hm' : 0 < m') (n n' : Nat) :
    UnpackedFloat.add Format.binary64 (multiple s m n) (multiple s' m' n')
      = UnpackedFloat.normalize Format.binary64
          (s.apply ((m * 2 ^ (n - min n n') : Nat) : Int) + s'.apply ((m' * 2 ^ (n' - min n n') : Nat) : Int))
          (((min n n' : Nat) : Int) - 1074) .positive := by
  have hexponent : min ((n : Int) - 1074) ((n' : Int) - 1074) = ((min n n' : Nat) : Int) - 1074 := by omega
  rw [multiple, multiple, dif_neg hm.ne', dif_neg hm'.ne', UnpackedFloat.add, hexponent,
    decreaseExponent_eq, decreaseExponent_eq]

/-- A sign in front of a number shifted to a lesser power of two, seen from that power. -/
theorem apply_mul_pow (s : Sign) (m n k : Nat) (hk : k ≤ n) :
    s.apply ((m * 2 ^ (n - k) : Nat) : Int) * 2 ^ k = signed s m n := by
  have hnat : m * 2 ^ (n - k) * 2 ^ k = m * 2 ^ n := by
    rw [Nat.mul_assoc, ← Nat.pow_add, Nat.sub_add_cancel hk]
  have hint : ((m * 2 ^ (n - k) : Nat) : Int) * 2 ^ k = ((m * 2 ^ n : Nat) : Int) := by
    exact_mod_cast hnat
  cases s with
  | positive => exact hint
  | negative =>
    show -((m * 2 ^ (n - k) : Nat) : Int) * 2 ^ k = -((m * 2 ^ n : Nat) : Int)
    rw [Int.neg_mul, hint]

/-- The sum of two doubles is the double nearest to their sum. -/
theorem place_add {s s' : Sign} {m n m' n' : Nat} (h : Canonical m n) (h' : Canonical m' n')
    (hn : n ≤ 2045) (hn' : n' ≤ 2045) :
    place (Float.Model.pack
        (UnpackedFloat.add Format.binary64 (multiple s m n) (multiple s' m' n'))).unpack
      = place (nearestDouble (signed s m n + signed s' m' n')) := by
  have hsigned (s : Sign) (n : Nat) : signed s 0 n = 0 := by
    rw [signed, Nat.zero_mul]
    cases s <;> rfl
  -- Adding zero does not round, and leaves a double that is nearest to itself.
  rcases Nat.eq_zero_or_pos m with rfl | hm
  · rw [hsigned, Int.zero_add, place_nearestDouble_signed s' h' hn']
    rcases Nat.eq_zero_or_pos m' with rfl | hm'
    · obtain ⟨s'', hzero⟩ := exists_add_zero_zero Format.binary64 s s'
      have hsum : UnpackedFloat.add Format.binary64 (multiple s 0 n) (multiple s' 0 n') = .zero s'' := hzero
      have hunpacked : (Float.Model.pack (.zero s'')).unpack = .zero s'' := unpack_packedZero
      rw [hsum, hunpacked]
      rfl
    · have hsum :
          UnpackedFloat.add Format.binary64 (multiple s 0 n) (multiple s' m' n') = multiple s' m' n' := by
        rw [multiple, multiple, dif_pos rfl, dif_neg hm'.ne']
        rfl
      rw [hsum, unpack_pack_multiple s' h', packable, if_pos hn']
  · rcases Nat.eq_zero_or_pos m' with rfl | hm'
    · have hsum :
          UnpackedFloat.add Format.binary64 (multiple s m n) (multiple s' 0 n') = multiple s m n := by
        rw [multiple, multiple, dif_pos rfl, dif_neg hm.ne']
        rfl
      rw [hsigned, Int.add_zero, place_nearestDouble_signed s h hn, hsum, unpack_pack_multiple s h,
        packable, if_pos hn]
    · rw [add_multiple s s' hm hm', unpack_pack_normalize, Int.add_mul,
        apply_mul_pow s m n _ (Nat.min_le_left n n'), apply_mul_pow s' m' n' _ (Nat.min_le_right n n')]

/-- A finite number is a multiple, its exponent counted from the least one. -/
theorem finite_eq_multiple (s : Sign) {m n : Nat} (hm : 0 < m) {e : Int} (he : e = (n : Int) - 1074) :
    UnpackedFloat.finite s m e hm = multiple s m n := by
  subst he
  rw [multiple, dif_neg hm.ne']

/-- A finite double is a multiple of the least positive one. -/
theorem exists_multiple (b : BitVec Format.binary64.numBits)
    (hfinite : (UnpackedFloat.unpack Format.binary64 b).isFinite = true) :
    ∃ s m n, UnpackedFloat.unpack Format.binary64 b = multiple s m n ∧ Canonical m n ∧ n ≤ 2045 := by
  revert hfinite
  fun_cases UnpackedFloat.unpack Format.binary64 b with
  | case1 => exact fun h => absurd h Bool.false_ne_true
  | case2 => exact fun h => absurd h Bool.false_ne_true
  | case3 mantissa field sign s hones hzero hnone =>
    exact fun _ => ⟨s, 0, 0, rfl, ⟨by decide, Or.inl rfl⟩, by decide⟩
  | case4 mantissa field e sign s hones hzero hsome =>
    -- Without an exponent the mantissa is short.
    intro _
    have hpos : 0 < mantissa.toNat := Nat.pos_of_ne_zero fun h => hsome (BitVec.eq_of_toNat_eq h)
    have hlt : mantissa.toNat < 2 ^ 52 := mantissa.isLt
    have hexponent : e + 1 = ((0 : Nat) : Int) - 1074 := by
      show ((field.toNat : Int) - (1023 + 52)) + 1 = _
      rw [hzero]
      rfl
    exact ⟨s, mantissa.toNat, 0, finite_eq_multiple s hpos hexponent,
      ⟨hlt.trans (by decide), Or.inl rfl⟩, by decide⟩
  | case5 mantissa field e sign s hones hnonzero =>
    -- Otherwise it has a first bit that is not stored.
    intro _
    have hlt : mantissa.toNat < 2 ^ 52 := mantissa.isLt
    have hfield : 0 < field.toNat := Nat.pos_of_ne_zero fun h => hnonzero (BitVec.eq_of_toNat_eq h)
    have hfield' : field.toNat < 2047 := by
      have hbits : field.toNat < 2048 := field.isLt
      have hne : field.toNat ≠ 2047 := fun h => hones (BitVec.eq_of_toNat_eq h)
      omega
    have hexponent : e = ((field.toNat - 1 : Nat) : Int) - 1074 := by
      show (field.toNat : Int) - (1023 + 52) = _
      omega
    have hmantissa : (1#1 ++ mantissa).toNat = 2 ^ 52 + mantissa.toNat := by
      rw [BitVec.toNat_append, ← Nat.shiftLeft_add_eq_or_of_lt mantissa.isLt, Nat.shiftLeft_eq]
      rfl
    refine ⟨s, (1#1 ++ mantissa).toNat, field.toNat - 1,
      finite_eq_multiple s (by omega) hexponent, ⟨by omega, Or.inr (by omega)⟩, by omega⟩

/-! ### Greater summands -/

/-- Of two numbers in order, the lesser is least of all, or the greater is greatest of all, or both are
finite. -/
theorem finite_of_place_le {u v : UnpackedFloat} (hu : u ≠ .notANumber) (hv : v ≠ .notANumber)
    (h : place u ≤ place v) :
    u = .infinity .negative ∨ v = .infinity .positive ∨ u.isFinite = true ∧ v.isFinite = true := by
  rcases u with (_ | _) | _ | _ | ⟨_ | _, m, e, hm⟩ <;>
    rcases v with (_ | _) | _ | _ | ⟨_ | _, m', e', hm'⟩ <;>
    simp_all [place, Prod.Lex.toLex_le_toLex, UnpackedFloat.isFinite]

/-- Only positive infinity is placed as high as positive infinity. -/
theorem eq_infinity_of_place_le {u : UnpackedFloat} (h : place (.infinity .positive) ≤ place u) :
    u = .infinity .positive := by
  rcases u with (_ | _) | _ | _ | ⟨_ | _, m, e, hm⟩ <;> simp_all [place, Prod.Lex.toLex_le_toLex]

/-- An infinity survives packing. -/
theorem unpack_pack_infinity (s : Sign) : (Float.Model.pack (.infinity s)).unpack = .infinity s :=
  unpack_packedInfinity s

/-- A finite number is lost in an infinite one. -/
theorem add_infinity {w : UnpackedFloat} (hw : w.isFinite = true) (s : Sign) :
    UnpackedFloat.add Format.binary64 w (.infinity s) = .infinity s := by
  cases w with
  | zero => rfl
  | finite => rfl
  | infinity => exact absurd hw Bool.false_ne_true
  | notANumber => exact absurd hw Bool.false_ne_true

/-- The program adds doubles by adding what they are unpacked to. -/
theorem unpack_add (x y : Float) :
    (x + y).toModel.unpack =
      (Float.Model.pack (UnpackedFloat.add Format.binary64 x.toModel.unpack y.toModel.unpack)).unpack :=
  rfl

/-- Adding a finite double keeps the order. -/
theorem add_le_add {x y z : Float} (hz : z.isFinite = true) (h : x ≤ y) : z + x ≤ z + y := by
  obtain ⟨hx, hy⟩ := unpack_ne_of_le h
  have hsum {x : Float} (hx : x.toModel.unpack ≠ .notANumber) : (z + x).toModel.unpack ≠ .notANumber :=
    unpack_pack_ne (add_ne (unpack_ne_of_isFinite hz) hx (Or.inl hz))
  rw [le_iff_unpack, le_iff_place hx hy] at h
  rw [le_iff_unpack, le_iff_place (hsum hx) (hsum hy), unpack_add, unpack_add]
  -- Infinity is at an end of the order and stays there. For finite numbers the exact sums are in order,
  -- and rounding keeps it.
  rcases finite_of_place_le hx hy h with hleast | hgreatest | ⟨hfinite, hfinite'⟩
  · rw [hleast, add_infinity hz, unpack_pack_infinity]
    exact infinity_le_place _
  · rw [hgreatest, add_infinity hz, unpack_pack_infinity]
    exact place_le_infinity _
  · obtain ⟨s, m, n, hx, hcanonical, hn⟩ := exists_multiple x.toBits.toBitVec hfinite
    obtain ⟨s', m', n', hy, hcanonical', hn'⟩ := exists_multiple y.toBits.toBitVec hfinite'
    obtain ⟨t, k, i, hz, hsummand, hi⟩ := exists_multiple z.toBits.toBitVec hz
    have hx : x.toModel.unpack = multiple s m n := hx
    have hy : y.toModel.unpack = multiple s' m' n' := hy
    have hz : z.toModel.unpack = multiple t k i := hz
    rw [hx, hy] at h
    rw [hx, hy, hz, place_add hsummand hcanonical hi hn, place_add hsummand hcanonical' hi hn']
    exact place_nearestDouble_le (Int.add_le_add_left (signed_le_of_place_le hcanonical hcanonical' h) _)

/-- What is no number stays so. -/
theorem unpack_pack_notANumber : (Float.Model.pack .notANumber).unpack = .notANumber :=
  (unpack_eq_notANumber_iff_of_valid (Float.Model.pack .notANumber).valid).mpr rfl

/-- Nothing but its opposite takes negative infinity away. -/
theorem infinity_add {u : UnpackedFloat} (hu : u ≠ .notANumber) (hgreatest : u ≠ .infinity .positive) :
    UnpackedFloat.add Format.binary64 (.infinity .negative) u = .infinity .negative := by
  rcases u with (_ | _) | _ | _ | _
  case infinity.positive => exact absurd rfl hgreatest
  case notANumber => exact absurd rfl hu
  all_goals rfl

/-- A sum with a summand that is not finite is no number or infinite. -/
theorem eq_infinity_of_add_ne {u w : UnpackedFloat} (hw : w.isFinite = false)
    (hsum : (Float.Model.pack (UnpackedFloat.add Format.binary64 w u)).unpack ≠ .notANumber)
    (hgreatest : (Float.Model.pack (UnpackedFloat.add Format.binary64 w u)).unpack ≠ .infinity .positive) :
    w = .infinity .negative ∧ u ≠ .infinity .positive := by
  rcases w with (_ | _) | _ | _ | _
  case notANumber => exact absurd unpack_pack_notANumber hsum
  case zero => exact absurd hw (Ne.symm Bool.false_ne_true)
  case finite => exact absurd hw (Ne.symm Bool.false_ne_true)
  -- Positive infinity stays as it is, unless it meets its opposite and no number is left.
  case infinity.positive =>
    rcases u with (_ | _) | _ | _ | _
    case infinity.negative => exact absurd unpack_pack_notANumber hsum
    case notANumber => exact absurd unpack_pack_notANumber hsum
    all_goals exact absurd (unpack_pack_infinity .positive) hgreatest
  case infinity.negative =>
    refine ⟨rfl, ?_⟩
    rintro rfl
    exact hsum unpack_pack_notANumber

/-- Nothing is above positive infinity. -/
theorem ne_infinity_of_lt {x y : Float} (h : x < y) : x.toModel.unpack ≠ .infinity .positive := by
  intro hinfinity
  obtain ⟨hx, hy⟩ := unpack_ne_of_lt h
  rw [lt_iff_not_le (le_self_iff.mpr hx) (le_self_iff.mpr hy), le_iff_unpack, le_iff_place hy hx,
    hinfinity] at h
  exact h (place_le_infinity _)

/-- A greater summand makes a greater sum, unless that is infinite. -/
theorem add_le_add_of_lt {x y z bound : Float} (h : x ≤ y) (hlt : z + y < bound) : z + x ≤ z + y := by
  cases hz : z.toModel.unpack.isFinite with
  | true => exact add_le_add hz h
  | false =>
    obtain ⟨hx, hy⟩ := unpack_ne_of_le h
    obtain ⟨hinfinity, hygreatest⟩ :=
      eq_infinity_of_add_ne hz (unpack_ne_of_lt hlt).1 (ne_infinity_of_lt hlt)
    have hxgreatest : x.toModel.unpack ≠ .infinity .positive := by
      intro hxinfinity
      rw [le_iff_unpack, le_iff_place hx hy, hxinfinity] at h
      exact hygreatest (eq_infinity_of_place_le h)
    rw [le_iff_unpack, unpack_add, unpack_add, hinfinity, infinity_add hx hxgreatest,
      infinity_add hy hygreatest, unpack_pack_infinity]
    rfl

/-- What holds of a sum below a bound holds of every lesser sum. -/
theorem add_lt_of_le {x y z bound : Float} (h : x ≤ y) (hlt : z + y < bound) : z + x < bound :=
  Scalar.lt_of_le_of_lt (add_le_add_of_lt h hlt) hlt

end Binary64

instance : OrderedAddition Float where
  lt_of_lt_of_le _ _ _ := Scalar.lt_of_lt_of_le
  add_lt_of_le _ _ _ _ := Binary64.add_lt_of_le

end VennDiagram
