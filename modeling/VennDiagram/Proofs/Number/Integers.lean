import VennDiagram.Proofs.Number.Steps

/-!
# `VennDiagram.Proofs.Number.Integers`: integers and doubles

`Binary64.round` assembles a double from bits, without the arithmetic of doubles. `unpack_round` says that
what it assembles is the number rounded as `nearestMagnitude` rounds it, so that what is known about sums
and differences of doubles holds for it too. Its carry is the one case of its own: a mantissa of 53 bits that
is rounded up to `2 ^ 53` (`unpack_assemble_rounded`).

* From integers: `ofInt?` gives a double unless the integer is at least `integerLimit` in magnitude
  (`ofInt?_eq_none_iff`).
* To integers: `toInt?` gives an integer if and only if the double is finite and that integer
  (`toInt?_eq_some_iff`). Doubles are taken apart into the same three parts from which they are assembled
  (`exists_parts`).
-/

set_option autoImplicit false

namespace VennDiagram

namespace Binary64

open Float.Model Float.Model.UnpackedFloat

/-! ### Doubles from their parts -/

/-- The sign of a double. -/
def sign (negative : Bool) : Sign := if negative then .negative else .positive

/-- The bits of a double are its sign, its exponent field and its stored mantissa, in this order. -/
theorem toNat_packComponents (s : Sign) (field : BitVec 11) (stored : BitVec 52) :
    (packComponents Format.binary64 s field stored).toNat
      = (s.toBitVec.toNat * 2 ^ 11 + field.toNat) * 2 ^ 52 + stored.toNat := by
  show (s.toBitVec ++ field ++ stored).toNat = _
  rw [BitVec.toNat_append, BitVec.toNat_append, ← Nat.shiftLeft_add_eq_or_of_lt (BitVec.isLt _),
    ← Nat.shiftLeft_add_eq_or_of_lt (BitVec.isLt _), Nat.shiftLeft_eq, Nat.shiftLeft_eq]

/-- The bits that a double is assembled from. -/
theorem toBitVec_assembled (negative : Bool) {field stored : Nat} (hfield : field < 2 ^ 11)
    (hstored : stored < 2 ^ 52) :
    ((if negative then 0x8000000000000000 else 0 : UInt64) |||
        UInt64.ofNat (field * 2 ^ 52 + stored)).toBitVec
      = packComponents Format.binary64 (sign negative) (BitVec.ofNat 11 field) (BitVec.ofNat 52 stored) := by
  have hmagnitude : field * 2 ^ 52 + stored < 2 ^ 63 := by omega
  have hbits : (UInt64.ofNat (field * 2 ^ 52 + stored)).toNat = field * 2 ^ 52 + stored := by
    rw [UInt64.toNat_ofNat', Nat.mod_eq_of_lt (by omega)]
  apply BitVec.eq_of_toNat_eq
  rw [toNat_packComponents, BitVec.toNat_ofNat, BitVec.toNat_ofNat, Nat.mod_eq_of_lt hfield,
    Nat.mod_eq_of_lt hstored, UInt64.toNat_toBitVec, UInt64.toNat_or, hbits]
  -- The sign is the bit above all those of the magnitude, so setting it is an addition.
  cases negative with
  | false =>
    have hzero : (if false = true then 0x8000000000000000 else 0 : UInt64).toNat = 0 := rfl
    have hsign : (sign false).toBitVec.toNat = 0 := rfl
    rw [hzero, hsign, Nat.zero_or]
    omega
  | true =>
    have htop : (if true = true then 0x8000000000000000 else 0 : UInt64).toNat = 2 ^ 63 := rfl
    have hsign : (sign true).toBitVec.toNat = 1 := rfl
    have hor := Nat.two_pow_add_eq_or_of_lt hmagnitude 1
    rw [Nat.mul_one] at hor
    rw [htop, hsign, ← hor]
    omega

/-- Fields without a bit are a zero of their sign. -/
theorem unpack_zero (negative : Bool) :
    UnpackedFloat.unpack Format.binary64
        (packComponents Format.binary64 (sign negative) (BitVec.ofNat 11 0) (BitVec.ofNat 52 0))
      = .zero (sign negative) := by
  cases negative <;> exact unpack_packedZero

/-- A canonical mantissa and its exponent are assembled to the double they stand for, or to infinity. -/
theorem unpack_assemble (negative : Bool) {m n : Nat} (h : Canonical m n) :
    (assemble negative m ((n : Int) - 1074)).toModel.unpack = packable (sign negative) m n := by
  have hlt : m < 2 ^ 53 := h.lt
  have hexponent : ((n : Int) - 1074 + 1075).toNat = n + 1 := by omega
  have hpow : Nat.pow 2 storedBits = 2 ^ 52 := rfl
  have hinfinity : (0x7FF <<< storedBits : Nat) = 2047 * 2 ^ 52 := rfl
  -- Unpacking the bits is unpacking what they are packed from.
  have hbits : ∀ b : UInt64, UnpackedFloat.unpack Format.binary64 b.toBitVec = multiple (sign negative) m n →
      n ≤ 2045 → (Float.ofBits b).toModel.unpack = packable (sign negative) m n := by
    intro b hb _
    show (Float.Model.pack (UnpackedFloat.unpack Format.binary64 b.toBitVec)).unpack = _
    rw [hb]
    exact unpack_pack_multiple (sign negative) h
  have hshift : (n + 1) <<< storedBits = (n + 1) * 2 ^ 52 := Nat.shiftLeft_eq _ _
  simp only [assemble, hpow, hinfinity, hexponent, hshift]
  by_cases hfull : 2 ^ 52 ≤ m
  · rw [if_neg (Nat.not_lt.mpr hfull)]
    by_cases hn : n ≤ 2045
    · rw [if_neg (by omega)]
      refine hbits _ ?_ hn
      rw [toBitVec_assembled negative (by omega) (by omega)]
      have hstored : BitVec.ofNat 52 (m - 2 ^ 52) = BitVec.ofNat 52 m := by
        apply BitVec.eq_of_toNat_eq
        rw [BitVec.toNat_ofNat, BitVec.toNat_ofNat]
        omega
      rw [hstored, unpack_normal _ hfull hlt hn, multiple, dif_neg (by omega)]
    · rw [if_pos (by omega), packable, if_neg hn]
      cases negative <;> rfl
  · obtain rfl : n = 0 := h.full.resolve_right hfull
    have hmagnitude : m = 0 * 2 ^ 52 + m := by omega
    rw [if_pos (Nat.not_le.mp hfull), if_neg (by omega)]
    refine hbits _ ?_ (by omega)
    rw [hmagnitude, toBitVec_assembled negative (by decide) (Nat.not_le.mp hfull), Nat.zero_mul, Nat.zero_add]
    rcases Nat.eq_zero_or_pos m with rfl | hpos
    · exact unpack_zero negative
    · rw [multiple, dif_neg hpos.ne']
      exact unpack_subnormal _ hpos (Nat.not_le.mp hfull)

/-- A mantissa that was rounded up to `2 ^ 53` is assembled as one bit less. -/
theorem unpack_assemble_rounded (negative : Bool) {m n : Nat} (hm : m ≤ 2 ^ 53)
    (hfull : n = 0 ∨ 2 ^ 52 ≤ m) :
    (assemble negative m ((n : Int) - 1074)).toModel.unpack
      = packable (sign negative) (m / 2 ^ excess m) (n + excess m) := by
  rcases Nat.lt_or_eq_of_le hm with hlt | rfl
  · rw [excess_eq_zero hlt, Nat.pow_zero, Nat.div_one, Nat.add_zero]
    exact unpack_assemble negative ⟨hlt, hfull⟩
  · have hexcess : excess (2 ^ 53) = 1 := by rw [excess, Nat.log2_two_pow]
    have hhalf : (2 ^ 53 / 2 ^ 1 : Nat) = 2 ^ 52 := by decide
    -- Rounded up to 53 bits, the mantissa is that of the next exponent.
    have hcarry : assemble negative (2 ^ 53) ((n : Int) - 1074)
        = assemble negative (2 ^ 52) (((n + 1 : Nat) : Int) - 1074) := by
      have hexponent : ((n : Int) - 1074 + 1075).toNat = n + 1 := by omega
      have hexponent' : (((n + 1 : Nat) : Int) - 1074 + 1075).toNat = n + 2 := by omega
      have hmagnitude : (n + 1) <<< storedBits + (2 ^ 53 - Nat.pow 2 storedBits)
          = (n + 2) <<< storedBits + (2 ^ 52 - Nat.pow 2 storedBits) := by
        have hpow : Nat.pow 2 storedBits = 2 ^ 52 := rfl
        rw [hpow, Nat.shiftLeft_eq, Nat.shiftLeft_eq, storedBits]
        omega
      have hlarge : ¬ 2 ^ 53 < Nat.pow 2 storedBits := by decide
      have hlarge' : ¬ 2 ^ 52 < Nat.pow 2 storedBits := by decide
      simp only [assemble, hexponent, hexponent', hlarge, hlarge', if_false, hmagnitude]
    rw [hcarry, hexcess, hhalf]
    exact unpack_assemble negative ⟨by decide, Or.inr (by decide)⟩

/-! ### The double nearest to an integer -/

/-- The bits that are dropped decide whether the rest goes up. -/
theorem rounded_eq_nearest (k : Nat) {drop : Nat} (hdrop : 0 < drop) :
    let kept := k >>> drop
    let lost := k - kept <<< drop
    let half := 1 <<< (drop - 1)
    (if half < lost || (lost == half && (false || kept % 2 == 1)) then kept + 1 else kept)
      = nearest k drop := by
  intro kept lost half
  have hkept : kept = k / 2 ^ drop := Nat.shiftRight_eq_div_pow _ _
  have hlost : lost = k % 2 ^ drop := by
    have hdiv := Nat.div_add_mod k (2 ^ drop)
    have hshift : kept <<< drop = 2 ^ drop * (k / 2 ^ drop) := by
      rw [Nat.shiftLeft_eq, hkept, Nat.mul_comm]
    show k - kept <<< drop = _
    omega
  have hhalf : 2 ^ drop = 2 * half := by
    show 2 ^ drop = 2 * 1 <<< (drop - 1)
    rw [Nat.shiftLeft_eq, Nat.one_mul, ← Nat.pow_succ', Nat.succ_eq_add_one, Nat.sub_add_cancel hdrop]
  -- With the shifts written as division, both say the same about what is kept and what is lost.
  rw [nearest, ← hkept, ← hlost, hhalf]
  clear_value kept lost half
  simp only [Bool.false_or, Bool.or_eq_true, Bool.and_eq_true, decide_eq_true_eq, beq_iff_eq]
  split_ifs <;> omega

/-- An integer is rounded to the double nearest to it. -/
theorem unpack_round (negative : Bool) (k : Nat) :
    (Binary64.round negative k 0 false).toModel.unpack = nearestMagnitude (sign negative) (k * 2 ^ 1074) := by
  rw [Binary64.round]
  rcases Nat.eq_zero_or_pos k with rfl | hk
  · have hzero : Canonical 0 0 := ⟨by decide, Or.inl rfl⟩
    have hnone : nearestMagnitude (sign negative) (0 * 2 ^ 0) = packable (sign negative) 0 0 :=
      nearestMagnitude_eq_packable (sign negative) hzero
    have hleast : minExponent = ((0 : Nat) : Int) - 1074 := rfl
    rw [Nat.zero_mul] at hnone
    rw [if_pos rfl, Nat.zero_mul, hnone, hleast, unpack_assemble negative hzero]
  rw [if_neg hk.ne']
  have hsurplus : max ((k.log2 : Int) - storedBits) (minExponent - 0) = (k.log2 : Int) - 52 := by
    rw [storedBits, minExponent]
    omega
  simp only [hsurplus, Int.zero_add]
  by_cases hshort : (k.log2 : Int) - 52 ≤ 0
  · -- A short mantissa is filled up with zeros.
    obtain ⟨zeros, hzeros⟩ : ∃ zeros, k.log2 + zeros = 52 := ⟨52 - k.log2, by omega⟩
    have hlog : (k * 2 ^ zeros).log2 = 52 := (log2_mul_pow hk zeros).trans hzeros
    have hpos : k * 2 ^ zeros ≠ 0 := (Nat.mul_pos hk (Nat.two_pow_pos zeros)).ne'
    obtain ⟨hfull, hlt⟩ := (Nat.log2_eq_iff hpos).mp hlog
    have hcanonical : Canonical (k * 2 ^ zeros) (k.log2 + 1022) := ⟨hlt, Or.inr hfull⟩
    have hexponent : (k.log2 : Int) - 52 = ((k.log2 + 1022 : Nat) : Int) - 1074 := by omega
    have hcount : (-((k.log2 : Int) - 52)).toNat = zeros := by omega
    have hsum : zeros + (k.log2 + 1022) = 1074 := by omega
    have hnumber : k * 2 ^ 1074 = k * 2 ^ zeros * 2 ^ (k.log2 + 1022) := by
      rw [Nat.mul_assoc, ← Nat.pow_add, hsum]
    rw [hnumber, nearestMagnitude_eq_packable _ hcanonical, if_pos hshort, hcount, Nat.shiftLeft_eq,
      hexponent, unpack_assemble negative hcanonical]
  · obtain ⟨drop, hdrop, hlog⟩ : ∃ drop, 0 < drop ∧ k.log2 = drop + 52 := ⟨k.log2 - 52, by omega, by omega⟩
    have hcount : ((k.log2 : Int) - 52).toNat = drop := by omega
    have hexponent : (k.log2 : Int) - 52 = ((drop + 1074 : Nat) : Int) - 1074 := by omega
    have hexcess : excess (k * 2 ^ 1074) = drop + 1074 := by
      rw [excess, log2_mul_pow hk]
      omega
    have hkept : nearest (k * 2 ^ 1074) (excess (k * 2 ^ 1074)) = nearest k drop := by
      rw [hexcess, nearest_mul_pow]
    have hle : nearest k drop ≤ 2 ^ 53 := hkept ▸ kept_le (k * 2 ^ 1074)
    have hfull : 2 ^ 52 ≤ nearest k drop := hkept ▸ le_kept (by omega)
    have hrounded := rounded_eq_nearest k hdrop
    dsimp only at hrounded
    rw [if_neg hshort, hcount, hrounded, hexponent, unpack_assemble_rounded negative hle (Or.inr hfull),
      nearestMagnitude, hkept, hexcess]

/-! ### Integers beyond the doubles -/

variable {x : Float}

/-- The least natural number that is too large for a double. It is as far beyond the greatest double as it
is below `2 ^ 1024`. -/
def integerLimit : Nat := 2 ^ 1024 - 2 ^ 970

/-- Packing leaves a canonical number finite exactly if its exponent is one of a double. -/
theorem isFinite_packable_iff (s : Sign) (m n : Nat) : (packable s m n).isFinite = true ↔ n ≤ 2045 := by
  rw [packable]
  split
  · rename_i hn
    refine iff_of_true ?_ hn
    rw [multiple]
    split <;> rfl
  · rename_i hn
    exact iff_of_false Bool.false_ne_true hn

/-- A number of `e + 54` bits is rounded to a mantissa of 53 bits, unless all of these are set and it lies
half a step beyond them. -/
theorem nearest_lt_iff {k e : Nat} (hk : k < 2 ^ (e + 54)) :
    nearest k (e + 1) < 2 ^ 53 ↔ k < 2 ^ (e + 54) - 2 ^ e := by
  have hpos : 0 < 2 ^ e := Nat.two_pow_pos e
  rw [Nat.pow_add] at hk ⊢
  rw [nearest, Nat.pow_succ']
  generalize 2 ^ e = half at hk hpos ⊢
  have hdiv := Nat.div_add_mod k (2 * half)
  have hlost : k % (2 * half) < 2 * half := Nat.mod_lt _ (by omega)
  generalize k / (2 * half) = kept at hdiv ⊢
  generalize k % (2 * half) = lost at hdiv hlost ⊢
  have hkept : kept < 2 ^ 53 := by
    by_contra hlarge
    have hmul : 2 * half * 2 ^ 53 ≤ 2 * half * kept := Nat.mul_le_mul_left _ (Nat.not_lt.mp hlarge)
    omega
  rcases Nat.lt_or_eq_of_le (Nat.le_sub_one_of_lt hkept) with hsmall | hfull
  · -- The mantissa has room for one more.
    have hmul : 2 * half * kept ≤ 2 * half * (2 ^ 53 - 2) := Nat.mul_le_mul_left _ (by omega)
    refine iff_of_true ?_ (by omega)
    split_ifs <;> omega
  · rw [hfull] at hdiv ⊢
    split_ifs <;> omega

/-- The greatest power of two that is a double lies below the limit of rounding. -/
theorem two_pow_lt_sub (e : Nat) : 2 ^ (e + 53) < 2 ^ (e + 54) - 2 ^ e := by
  have hpos : 0 < 2 ^ e := Nat.two_pow_pos e
  rw [Nat.pow_add, Nat.pow_add]
  omega

/-- An integer is rounded to a finite double if and only if it is below the limit. -/
theorem isFinite_nearestMagnitude_iff (s : Sign) (k : Nat) :
    (nearestMagnitude s (k * 2 ^ 1074)).isFinite = true ↔ k < integerLimit := by
  -- The exponent is a variable, so that no power of two is evaluated.
  obtain ⟨e, he⟩ : ∃ e, e = 970 := exists_eq
  have hlimit : integerLimit = 2 ^ (e + 54) - 2 ^ e := by
    subst he
    decide +kernel
  have hcarry : excess (2 ^ 53) = 1 := by rw [excess, Nat.log2_two_pow]
  have hle := excess_le_excess (kept_le (k * 2 ^ 1074))
  rw [hcarry] at hle
  rw [nearestMagnitude, isFinite_packable_iff, hlimit]
  rcases Nat.eq_zero_or_pos k with rfl | hk
  · rw [Nat.zero_mul]
    exact iff_of_true (by decide) ((Nat.two_pow_pos _).trans (two_pow_lt_sub e))
  have hexcess : excess (k * 2 ^ 1074) = k.log2 + 1022 := by
    rw [excess, log2_mul_pow hk]
    omega
  rcases Nat.lt_trichotomy k.log2 (e + 53) with hsmall | hlog | hlarge
  · -- There is an exponent left for a carry.
    exact iff_of_true (by omega) (((Nat.log2_lt hk.ne').mp hsmall).trans (two_pow_lt_sub e))
  · -- Only a carry is too much.
    have hdrop : excess (k * 2 ^ 1074) = e + 1 + 1074 := by omega
    have hkept := kept_le (k * 2 ^ 1074)
    rw [hdrop, nearest_mul_pow] at hkept ⊢
    rw [← nearest_lt_iff ((Nat.log2_lt hk.ne').mp (by omega))]
    rcases Nat.lt_or_eq_of_le hkept with hlt | heq
    · exact iff_of_true (by rw [excess_eq_zero hlt, he]) hlt
    · rw [heq, hcarry]
      exact iff_of_false (by omega) (Nat.lt_irrefl _)
  · have hge : 2 ^ (e + 54) ≤ k := (Nat.le_log2 hk.ne').mp hlarge
    exact iff_of_false (by omega) (Nat.not_lt.mpr ((Nat.sub_le _ _).trans hge))

/-- An integer of four hundred digits is too large for the doubles. -/
theorem integerLimit_le_natAbs_ten_pow : integerLimit ≤ (10 ^ 400 : Int).natAbs := by decide +kernel

/-- An integer has a double nearest to it if and only if it is below the limit. -/
theorem ofInt?_eq_none_iff {i : Int} : ofInt? i = none ↔ integerLimit ≤ i.natAbs := by
  have hfinite : (Binary64.round (i < 0) i.natAbs 0 false).isFinite = true ↔ i.natAbs < integerLimit := by
    show (Binary64.round (i < 0) i.natAbs 0 false).toModel.unpack.isFinite = true ↔ _
    rw [unpack_round]
    exact isFinite_nearestMagnitude_iff _ _
  rw [ofInt?, ← Nat.not_lt, ← hfinite]
  simp

/-- An integer that has a double has a finite one. -/
theorem isFinite_of_ofInt? {i : Int} (h : ofInt? i = some x) : x.isFinite = true := by
  rw [ofInt?] at h
  obtain ⟨hfinite, hx⟩ := Option.ite_none_right_eq_some.mp h
  rwa [Option.some.inj hx] at hfinite

/-- Such an integer is below the limit. -/
theorem lt_integerLimit_of_ofInt? {i : Int} (h : ofInt? i = some x) : i.natAbs < integerLimit := by
  rw [← Nat.not_le, ← ofInt?_eq_none_iff, h]
  exact Option.some_ne_none x

/-! ### Whole doubles -/

/-- The sign that `parts` reads. -/
theorem ofBitVec_unpackSign (x : Float) :
    Sign.ofBitVec (@unpackSign Format.binary64 x.toBits.toBitVec) = sign (x.toBits >>> 63 == 1) := by
  have hbit : (@unpackSign Format.binary64 x.toBits.toBitVec).toNat = (x.toBits.toNat >>> 63) % 2 := by
    simp [unpackSign]
  have hshift : (x.toBits >>> 63).toNat = x.toBits.toNat >>> 63 := by
    rw [UInt64.toNat_shiftRight]
    rfl
  have hlt : x.toBits.toNat >>> 63 < 2 := by
    have hbits := x.toBits.toNat_lt
    rw [Nat.shiftRight_eq_div_pow]
    omega
  rw [← hshift] at hbit hlt
  generalize @unpackSign Format.binary64 x.toBits.toBitVec = bit at hbit
  generalize x.toBits >>> 63 = top at hbit hlt
  rcases Nat.lt_or_eq_of_le (Nat.le_of_lt_succ hlt) with hzero | hone
  · have htop : top = 0 := UInt64.toNat_inj.mp (Nat.lt_one_iff.mp hzero)
    subst htop
    obtain rfl : bit = 0#1 := BitVec.eq_of_toNat_eq hbit
    rfl
  · have htop : top = 1 := UInt64.toNat_inj.mp hone
    subst htop
    obtain rfl : bit = 1#1 := BitVec.eq_of_toNat_eq hbit
    rfl

/-- The parts of a finite double are those of the number it stands for. -/
theorem exists_parts (hx : x.isFinite = true) :
    ∃ negative, ∃ m n : Nat, parts x = .finite negative m ((n : Int) - 1074) ∧
      units x = signed (sign negative) m n := by
  have hfield := toNat_exponentField x
  have hstored := toNat_mantissaField x
  have hsign := ofBitVec_unpackSign x
  have hunpack : x.toModel.unpack = UnpackedFloat.unpack Format.binary64 x.toBits.toBitVec := rfl
  have hfinite : (UnpackedFloat.unpack Format.binary64 x.toBits.toBitVec).isFinite = true := hx
  refine ⟨x.toBits >>> 63 == 1, ?_⟩
  rw [← hsign]
  simp only [parts, hfield, hstored, units, hunpack]
  -- The fields are those that the number is unpacked from, so the cases of unpacking are the cases of
  -- the parts: not finite, zero, below the normal numbers, and normal.
  revert hfinite
  fun_cases UnpackedFloat.unpack Format.binary64 x.toBits.toBitVec with
  | case1 => exact fun h => absurd h Bool.false_ne_true
  | case2 => exact fun h => absurd h Bool.false_ne_true
  | case3 mantissa field bit sign hones hzero hnone =>
    intro _
    have hones' : field.toNat ≠ 2047 := fun h => hones (BitVec.eq_of_toNat_eq h)
    have hzero' : field.toNat = 0 := congrArg BitVec.toNat hzero
    have hnone' : mantissa.toNat = 0 := congrArg BitVec.toNat hnone
    refine ⟨0, 0, ?_, ?_⟩
    · rw [if_neg hones', if_pos hzero']
      exact congrArg (Parts.finite _ · _) hnone'
    · show 0 = sign.apply 0
      cases sign <;> rfl
  | case4 mantissa field e bit sign hones hzero hsome =>
    intro _
    have hones' : field.toNat ≠ 2047 := fun h => hones (BitVec.eq_of_toNat_eq h)
    have hzero' : field.toNat = 0 := congrArg BitVec.toNat hzero
    have hexponent : (e + 1 + 1074).toNat = 0 := by
      show ((field.toNat : Int) - (1023 + 52) + 1 + 1074).toNat = 0
      rw [hzero']
      rfl
    refine ⟨mantissa.toNat, 0, ?_, ?_⟩
    · rw [if_neg hones', if_pos hzero']
      rfl
    · dsimp only
      rw [hexponent]
      rfl
  | case5 mantissa field e bit sign hones hnonzero =>
    intro _
    have hones' : field.toNat ≠ 2047 := fun h => hones (BitVec.eq_of_toNat_eq h)
    have hzero' : field.toNat ≠ 0 := fun h => hnonzero (BitVec.eq_of_toNat_eq h)
    -- A normal number has a leading one that is not stored.
    have hmantissa : (1#1 ++ mantissa).toNat = mantissa.toNat + 2 ^ 52 := by
      rw [BitVec.toNat_append, ← Nat.shiftLeft_add_eq_or_of_lt mantissa.isLt, Nat.add_comm]
      rfl
    have hexponent : (e + 1074).toNat = field.toNat - 1 := by
      show ((field.toNat : Int) - (1023 + 52) + 1074).toNat = _
      omega
    refine ⟨mantissa.toNat + 2 ^ 52, field.toNat - 1, ?_, ?_⟩
    · rw [if_neg hones', if_neg hzero']
      congr 1
      show (field.toNat : Int) - 1075 = _
      omega
    · dsimp only
      rw [hexponent, hmantissa]
      rfl

/-- Only a finite double has a mantissa. -/
theorem isFinite_of_parts {negative : Bool} {mantissa : Nat} {exponent : Int}
    (h : parts x = .finite negative mantissa exponent) : x.isFinite = true := by
  have hones : @unpackExponent Format.binary64 x.toBits.toBitVec ≠ -1#11 := by
    intro hones
    have hfield : (@unpackExponent Format.binary64 x.toBits.toBitVec).toNat = 2047 :=
      congrArg BitVec.toNat hones
    simp only [parts, toNat_exponentField, hfield, if_true] at h
    split at h <;> exact absurd h Parts.noConfusion
  show (UnpackedFloat.unpack Format.binary64 x.toBits.toBitVec).isFinite = true
  rw [UnpackedFloat.unpack]
  simp only [hones, if_false]
  split
  · split <;> rfl
  · rfl

/-- A number is a multiple as an integer exactly if it is one as a number. -/
theorem natCast_eq_mul_iff {a unit : Nat} (hunit : 0 < unit) {i : Int} :
    (a : Int) = i * unit ↔ ∃ k : Nat, a = k * unit ∧ (k : Int) = i := by
  constructor
  · intro h
    have hnonneg : 0 ≤ i := by
      by_contra hneg
      have hproduct := Int.mul_neg_of_neg_of_pos (not_le.mp hneg) (Int.natCast_pos.mpr hunit)
      omega
    obtain ⟨k, rfl⟩ := Int.eq_ofNat_of_zero_le hnonneg
    exact ⟨k, by exact_mod_cast h, rfl⟩
  · rintro ⟨k, rfl, rfl⟩
    exact Int.natCast_mul k unit

/-- A number is a multiple of a unit if and only if its magnitude is. -/
theorem signed_eq_mul_iff (negative : Bool) (m n : Nat) {unit : Nat} (hunit : 0 < unit) (i : Int) :
    signed (sign negative) m n = i * unit ↔
      ∃ k : Nat, m * 2 ^ n = k * unit ∧ (if negative then -(k : Int) else k) = i := by
  cases negative with
  | false => exact natCast_eq_mul_iff hunit
  | true =>
    have hneg : -((m * 2 ^ n : Nat) : Int) = i * unit ↔ ((m * 2 ^ n : Nat) : Int) = -i * unit := by
      rw [Int.neg_mul, Int.neg_eq_comm, eq_comm]
    show -((m * 2 ^ n : Nat) : Int) = i * unit ↔ ∃ k : Nat, m * 2 ^ n = k * unit ∧ -(k : Int) = i
    rw [hneg, natCast_eq_mul_iff hunit]
    exact exists_congr fun k => and_congr_right' (by omega)

/-- Bits behind the point are dropped if they are all zero. -/
theorem magnitude_eq_some_iff (m n k : Nat) {point unit : Nat} (hunit : 2 ^ point = unit) :
    (if 0 ≤ (n : Int) - point then some (m <<< ((n : Int) - point).toNat)
      else if m % Nat.pow 2 (-((n : Int) - point)).toNat = 0 then
        some (m >>> (-((n : Int) - point)).toNat)
      else none) = some k ↔ m * 2 ^ n = k * unit := by
  subst hunit
  -- The number has bits below the point or it has none; if it has, they must be zero.
  by_cases hle : point ≤ n
  · obtain ⟨rest, rfl⟩ := Nat.exists_eq_add_of_le hle
    have hcount : (((point + rest : Nat) : Int) - point).toNat = rest := by omega
    rw [if_pos (by omega), hcount, Nat.shiftLeft_eq, Option.some.injEq, Nat.add_comm, Nat.pow_add,
      ← Nat.mul_assoc, Nat.mul_left_inj (Nat.two_pow_pos point).ne']
  · obtain ⟨rest, rfl⟩ := Nat.exists_eq_add_of_le (Nat.le_of_not_le hle)
    have hcount : (-((n : Int) - (n + rest : Nat))).toNat = rest := by omega
    have hpos : 0 < 2 ^ rest := Nat.two_pow_pos rest
    rw [if_neg (by omega), hcount, Nat.shiftRight_eq_div_pow, Nat.add_comm, Nat.pow_add,
      ← Nat.mul_assoc, Nat.mul_left_inj (Nat.two_pow_pos n).ne']
    have hpow : Nat.pow 2 rest = 2 ^ rest := rfl
    rw [hpow]
    constructor
    · intro h
      obtain ⟨hmod, hk⟩ := Option.ite_none_right_eq_some.mp h
      rw [← Option.some.inj hk, Nat.div_mul_cancel (Nat.dvd_of_mod_eq_zero hmod)]
    · rintro rfl
      rw [if_pos (Nat.mul_mod_left _ _), Nat.mul_div_cancel _ hpos]

/-- The whole doubles are those that stand for an integer. -/
theorem toInt?_eq_some_iff {i : Int} :
    toInt? x = some i ↔ x.isFinite = true ∧ units x = i * (2 ^ 1074 : Nat) := by
  -- The unit is kept as a variable, so that nothing computes the power.
  have hunit : 0 < 2 ^ 1074 := pow_pos two_pos 1074
  generalize hpow : 2 ^ 1074 = unit at hunit ⊢
  by_cases hx : x.isFinite = true
  · obtain ⟨negative, m, n, hparts, hunits⟩ := exists_parts hx
    rw [and_iff_right hx, hunits, signed_eq_mul_iff negative m n hunit i, toInt?, hparts]
    simp only [Option.map_eq_some_iff, Option.bind_eq_bind, Option.bind_eq_some_iff, Option.pure_def,
      Option.some.injEq]
    constructor
    · rintro ⟨_, ⟨k, hk, rfl⟩, hi⟩
      exact ⟨k, (magnitude_eq_some_iff m n k hpow).mp hk, hi⟩
    · rintro ⟨k, hk, hi⟩
      exact ⟨k, ⟨k, (magnitude_eq_some_iff m n k hpow).mpr hk, rfl⟩, hi⟩
  · refine iff_of_false (fun h => ?_) fun h => hx h.1
    rw [toInt?] at h
    split at h
    · rename_i hparts
      exact hx (isFinite_of_parts hparts)
    · exact absurd h (Option.some_ne_none i).symm

end Binary64
end VennDiagram
