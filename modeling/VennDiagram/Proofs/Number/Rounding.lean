import Mathlib
import VennDiagram.Proofs.Number.Doubles

/-!
# `VennDiagram.Proofs.Number.Rounding`: rounding to the nearest double

Doubles are multiples `m * 2 ^ n` of the least positive one, with a mantissa `m` of at most 53 bits
(`Canonical`). A number that has more bits is rounded: the bits that are too many are dropped one by one
while the last one and a trace of the others are kept, and these decide whether the rest goes up by one.

* `Drops.roundedMantissa_eq`: what comes out of that is the whole number that is `nearest`, a half going
  to the even neighbour.
* `round_eq`: what a number is rounded to depends on the number only, not on the mantissa and exponent it
  is given as.
* `rounded_le_rounded`: greater numbers are rounded to greater ones.
-/

set_option autoImplicit false

namespace VennDiagram

namespace Binary64

open Float.Model Float.Model.UnpackedFloat

/-! ### The nearest whole number -/

/-- The whole number nearest to `mantissa / 2 ^ drop`; a half goes to the even neighbour. -/
def nearest (mantissa drop : Nat) : Nat :=
  let kept := mantissa / 2 ^ drop
  let lost := mantissa % 2 ^ drop
  if 2 * lost < 2 ^ drop then kept
  else if 2 * lost = 2 ^ drop then kept + kept % 2
  else kept + 1

/-- What is left after dropping bits one by one: the kept bits, the last bit dropped, and whether there
was a bit below it. -/
structure Drops (mantissa drop : Nat) (m : ExtendedMantissa) : Prop where
  mantissa_eq : m.mantissa = mantissa / 2 ^ drop
  roundBit_iff : m.roundBit = true ↔ 2 ^ drop ≤ 2 * (mantissa % 2 ^ drop)
  stickyBit_iff : m.stickyBit = true ↔ 2 * (mantissa % 2 ^ drop) % 2 ^ drop ≠ 0

/-- Dropping no bit leaves the mantissa. -/
theorem Drops.zero (mantissa : Nat) : Drops mantissa 0 ⟨mantissa, false, false⟩ where
  mantissa_eq := by simp
  roundBit_iff := by simp [Nat.mod_one]
  stickyBit_iff := by simp [Nat.mod_one]

/-- Dropping one bit more remembers the bit before it only as a trace. -/
theorem Drops.succ {mantissa drop : Nat} {m : ExtendedMantissa} (h : Drops mantissa drop m) :
    Drops mantissa (drop + 1) m.shiftRightOne := by
  have hpos : 0 < 2 ^ drop := Nat.two_pow_pos drop
  have hlost : mantissa % 2 ^ drop < 2 ^ drop := Nat.mod_lt _ hpos
  have hmod : mantissa % 2 ^ (drop + 1) = mantissa % 2 ^ drop + 2 ^ drop * (mantissa / 2 ^ drop % 2) :=
    Nat.mod_mul
  refine ⟨?_, ?_, ?_⟩
  · show m.mantissa / 2 = _
    rw [h.mantissa_eq, Nat.div_div_eq_div_mul, ← Nat.pow_succ]
  · -- The last bit that was kept is the first one below the point now.
    show (m.mantissa % 2 != 0) = true ↔ _
    rw [h.mantissa_eq, hmod, Nat.pow_succ, bne_iff_ne]
    rcases Nat.mod_two_eq_zero_or_one (mantissa / 2 ^ drop) with hbit | hbit <;> rw [hbit] <;> omega
  · -- What was dropped before is below that bit, and its two bits say whether it was zero.
    show (m.roundBit || m.stickyBit) = true ↔ _
    have hbits : 2 * (mantissa % 2 ^ (drop + 1)) % 2 ^ (drop + 1) = 2 * (mantissa % 2 ^ drop) := by
      have hdouble : 2 * (mantissa % 2 ^ (drop + 1))
          = 2 * (mantissa % 2 ^ drop) + 2 ^ (drop + 1) * (mantissa / 2 ^ drop % 2) := by
        rw [hmod, Nat.pow_succ]
        ring
      rw [hdouble, Nat.add_mul_mod_self_left, Nat.mod_eq_of_lt (by omega)]
    rw [Bool.or_eq_true, h.roundBit_iff, h.stickyBit_iff, hbits]
    rcases Nat.lt_or_ge (2 * (mantissa % 2 ^ drop)) (2 ^ drop) with hsmall | hlarge
    · rw [Nat.mod_eq_of_lt hsmall]
      omega
    · exact iff_of_true (Or.inl hlarge) (by omega)

/-- Shifting to the right drops bits one by one. -/
theorem drops_shiftRight (mantissa drop : Nat) :
    Drops mantissa drop ((⟨mantissa, false, false⟩ : ExtendedMantissa) >>> drop) := by
  show Drops mantissa drop (drop.repeat ExtendedMantissa.shiftRightOne ⟨mantissa, false, false⟩)
  induction drop with
  | zero => exact Drops.zero mantissa
  | succ drop ih => exact ih.succ

/-- Rounding what is left gives the nearest whole number. -/
theorem Drops.roundedMantissa_eq {mantissa drop : Nat} {m : ExtendedMantissa}
    (h : Drops mantissa drop m) : m.roundedMantissa = nearest mantissa drop := by
  obtain ⟨kept, roundBit, stickyBit⟩ := m
  obtain ⟨hkept, hround, hsticky⟩ := h
  have hpos : 0 < 2 ^ drop := Nat.two_pow_pos drop
  have hlost : mantissa % 2 ^ drop < 2 ^ drop := Nat.mod_lt _ hpos
  dsimp only at hkept hround hsticky
  subst hkept
  rw [nearest]
  -- The round bit says whether at least half of the last place is dropped, the sticky bit whether what
  -- is dropped below that bit is more than nothing.
  cases roundBit with
  | false =>
    have hsmall : 2 * (mantissa % 2 ^ drop) < 2 ^ drop := by simpa using hround
    simp only [hsmall, if_true]
    cases stickyBit <;> rfl
  | true =>
    have hlarge : 2 ^ drop ≤ 2 * (mantissa % 2 ^ drop) := hround.mp rfl
    simp only [Nat.not_lt.mpr hlarge, if_false]
    have hrest : 2 * (mantissa % 2 ^ drop) % 2 ^ drop = 2 * (mantissa % 2 ^ drop) - 2 ^ drop := by
      rw [Nat.mod_eq_sub_mod hlarge, Nat.mod_eq_of_lt (by omega)]
    rw [hrest] at hsticky
    cases stickyBit with
    | false =>
      have htie : 2 * (mantissa % 2 ^ drop) = 2 ^ drop := by
        have := mt hsticky.mpr Bool.false_ne_true
        omega
      simp only [htie, if_true]
      rfl
    | true =>
      have habove : 2 * (mantissa % 2 ^ drop) ≠ 2 ^ drop := by
        have := hsticky.mp rfl
        omega
      simp only [habove, if_false]
      rfl

/-- Rounding is to one of the two neighbours. -/
theorem nearest_bounds (mantissa drop : Nat) :
    mantissa / 2 ^ drop ≤ nearest mantissa drop ∧ nearest mantissa drop ≤ mantissa / 2 ^ drop + 1 := by
  simp only [nearest]
  split
  · omega
  · split <;> omega

/-- Rounding keeps the order. -/
theorem nearest_le_nearest {mantissa mantissa' : Nat} (drop : Nat) (h : mantissa ≤ mantissa') :
    nearest mantissa drop ≤ nearest mantissa' drop := by
  have hkept : mantissa / 2 ^ drop ≤ mantissa' / 2 ^ drop := Nat.div_le_div_right h
  -- Only numbers that agree in the bits that are kept are told apart by those that are dropped.
  rcases Nat.lt_or_eq_of_le hkept with hlt | heq
  · exact (nearest_bounds mantissa drop).2.trans (hlt.trans_le (nearest_bounds mantissa' drop).1)
  · have hlost : mantissa % 2 ^ drop ≤ mantissa' % 2 ^ drop := by
      have hdiv := Nat.div_add_mod mantissa (2 ^ drop)
      have hdiv' := Nat.div_add_mod mantissa' (2 ^ drop)
      rw [heq] at hdiv
      omega
    simp only [nearest, heq]
    split_ifs <;> omega

/-- Dropping no bit rounds nothing. -/
theorem nearest_zero (mantissa : Nat) : nearest mantissa 0 = mantissa := by
  simp [nearest, Nat.mod_one]

/-- Bits that are zero are dropped without a trace. -/
theorem nearest_mul_pow (mantissa drop zeros : Nat) :
    nearest (mantissa * 2 ^ zeros) (drop + zeros) = nearest mantissa drop := by
  have hpos : 0 < 2 ^ zeros := Nat.two_pow_pos zeros
  have hkept : mantissa * 2 ^ zeros / 2 ^ (drop + zeros) = mantissa / 2 ^ drop := by
    rw [Nat.pow_add, Nat.mul_div_mul_right _ _ hpos]
  have hlost : mantissa * 2 ^ zeros % 2 ^ (drop + zeros) = mantissa % 2 ^ drop * 2 ^ zeros := by
    rw [Nat.pow_add, Nat.mul_mod_mul_right]
  simp only [nearest, hkept, hlost]
  have hlt : 2 * (mantissa % 2 ^ drop * 2 ^ zeros) < 2 ^ (drop + zeros) ↔
      2 * (mantissa % 2 ^ drop) < 2 ^ drop := by
    rw [Nat.pow_add, ← Nat.mul_assoc, Nat.mul_lt_mul_right hpos]
  have heq : 2 * (mantissa % 2 ^ drop * 2 ^ zeros) = 2 ^ (drop + zeros) ↔
      2 * (mantissa % 2 ^ drop) = 2 ^ drop := by
    rw [Nat.pow_add, ← Nat.mul_assoc, Nat.mul_left_inj hpos.ne']
  simp only [hlt, heq]

/-! ### Rounding to 53 bits -/

/-- How many bits a number has beyond those of a mantissa. -/
def excess (magnitude : Nat) : Nat := magnitude.log2 - 52

/-- The number `mantissa * 2 ^ n` as a multiple of the least positive double. -/
def multiple (s : Sign) (mantissa n : Nat) : UnpackedFloat :=
  if h : mantissa = 0 then .zero s else .finite s mantissa ((n : Int) - 1074) (Nat.pos_of_ne_zero h)

/-- Zeros at the end add to the number of bits. -/
theorem log2_mul_pow {m : Nat} (hm : 0 < m) (n : Nat) : (m * 2 ^ n).log2 = m.log2 + n := by
  induction n with
  | zero => simp
  | succ n ih =>
    have hne : m * 2 ^ n ≠ 0 := Nat.pos_iff_ne_zero.mp (Nat.mul_pos hm (Nat.two_pow_pos n))
    rw [Nat.pow_succ', Nat.mul_left_comm, Nat.log2_two_mul hne, ih, Nat.add_assoc]

/-- Rounding aims at the exponent that leaves 53 bits, but no lesser one than the least. -/
theorem targetExponent_eq (mantissa n : Nat) :
    Format.binary64.targetExponent (totalExponent mantissa ((n : Int) - 1074))
      = ((mantissa.log2 + n - 52 : Nat) : Int) - 1074 := by
  simp only [Format.targetExponent, totalExponent, Format.minExponent, Format.mantissaBits]
  omega

/-- Shifting to the right drops the excess. -/
theorem shiftToTargetExponent_eq (mantissa n : Nat) :
    shiftToTargetExponent Format.binary64 mantissa ((n : Int) - 1074) .exact
      = ((⟨mantissa, false, false⟩ : ExtendedMantissa) >>> excess mantissa,
        ((n + excess mantissa : Nat) : Int) - 1074) := by
  have hamount : (((mantissa.log2 + n - 52 : Nat) : Int) - 1074 - ((n : Int) - 1074)).toNat
      = excess mantissa := by
    rw [excess]
    omega
  rw [shiftToTargetExponent, targetExponent_eq, shiftToExponent, hamount]
  refine Prod.ext rfl ?_
  show (n : Int) - 1074 + (excess mantissa : Nat) = _
  omega

/-- A lesser exponent makes a mantissa with zeros at its end. -/
theorem decreaseExponent_eq (mantissa n target : Nat) :
    decreaseExponent mantissa ((n : Int) - 1074) ((target : Int) - 1074)
      = (mantissa * 2 ^ (n - target), ((min n target : Nat) : Int) - 1074) := by
  have hamount : ((n : Int) - 1074 - ((target : Int) - 1074)).toNat = n - target := by omega
  rw [decreaseExponent, Nat.shiftLeft_eq, hamount]
  refine Prod.ext rfl ?_
  show (n : Int) - 1074 - (n - target : Nat) = _
  omega

/-- Rounding depends on the number only, and drops its excess. A second excess is left if the mantissa
is rounded up to a power of two. -/
theorem round_eq (s : Sign) {m : Nat} (hm : 0 < m) (n : Nat) :
    UnpackedFloat.round Format.binary64 s m ((n : Int) - 1074) =
      let kept := nearest (m * 2 ^ n) (excess (m * 2 ^ n))
      multiple s (kept / 2 ^ excess kept) (excess (m * 2 ^ n) + excess kept) := by
  -- A great exponent is lowered first, which puts zeros behind the mantissa. What is dropped of these and
  -- of the mantissa is what is dropped of the number.
  have hexcess : excess (m * 2 ^ n) = m.log2 + n - 52 := by rw [excess, log2_mul_pow hm]
  generalize excess (m * 2 ^ n) = drop at hexcess
  have hfirst : excess (m * 2 ^ (n - drop)) = drop - n := by
    rw [excess, log2_mul_pow hm]
    omega
  have hdrop : min n drop + (drop - n) = drop := by omega
  have hnearest : nearest (m * 2 ^ (n - drop)) (drop - n) = nearest (m * 2 ^ n) drop := by
    have hpadded : m * 2 ^ (n - drop) * 2 ^ min n drop = m * 2 ^ n := by
      rw [Nat.mul_assoc, ← Nat.pow_add]
      congr 2
      omega
    rw [← nearest_mul_pow _ _ (min n drop), hpadded, Nat.add_comm, hdrop]
  rw [UnpackedFloat.round, targetExponent_eq, ← hexcess, decreaseExponent_eq]
  simp only [roundWithAccuracy, shiftToTargetExponent_eq, hfirst, hdrop,
    (drops_shiftRight _ _).roundedMantissa_eq, hnearest, (drops_shiftRight _ _).mantissa_eq, multiple]

/-- A mantissa of at most 53 bits, that has all of them unless the exponent is the least one. -/
structure Canonical (mantissa n : Nat) : Prop where
  lt : mantissa < 2 ^ 53
  full : n = 0 ∨ 2 ^ 52 ≤ mantissa

/-- Canonical numbers are in the order of their exponents and mantissas. -/
theorem Canonical.le_iff {m n m' n' : Nat} (h : Canonical m n) (h' : Canonical m' n') :
    m * 2 ^ n ≤ m' * 2 ^ n' ↔ n < n' ∨ n = n' ∧ m ≤ m' := by
  -- A greater exponent makes a greater number.
  have hlt {m n m' n' : Nat} (h : Canonical m n) (h' : Canonical m' n') (hn : n < n') :
      m * 2 ^ n < m' * 2 ^ n' := by
    have hfull : 2 ^ 52 ≤ m' := h'.full.resolve_left (by omega)
    calc m * 2 ^ n < 2 ^ 53 * 2 ^ n := Nat.mul_lt_mul_of_pos_right h.lt (Nat.two_pow_pos n)
      _ = 2 ^ 52 * 2 ^ (n + 1) := by rw [Nat.pow_succ']; ring
      _ ≤ m' * 2 ^ n' := Nat.mul_le_mul hfull (Nat.pow_le_pow_right (by omega) hn)
  rcases Nat.lt_trichotomy n n' with hn | rfl | hn
  · exact iff_of_true (hlt h h' hn).le (Or.inl hn)
  · rw [Nat.mul_le_mul_right_iff (Nat.two_pow_pos n)]
    simp
  · exact iff_of_false (Nat.not_le.mpr (hlt h' h hn)) (by omega)

/-- A mantissa has no bit beyond its own. -/
theorem excess_eq_zero {k : Nat} (h : k < 2 ^ 53) : excess k = 0 := by
  rcases Nat.eq_zero_or_pos k with rfl | hpos
  · rfl
  · have hlog : k.log2 < 53 := (Nat.log2_lt hpos.ne').mpr h
    rw [excess]
    omega

/-- Greater numbers have no fewer bits beyond those of a mantissa. -/
theorem excess_le_excess {k k' : Nat} (h : k ≤ k') : excess k ≤ excess k' := by
  rcases Nat.eq_zero_or_pos k with rfl | hpos
  · exact Nat.zero_le _
  · have hlog : k.log2 ≤ k'.log2 :=
      (Nat.le_log2 (hpos.trans_le h).ne').mpr ((Nat.log2_self_le hpos.ne').trans h)
    exact Nat.sub_le_sub_right hlog 52

/-- All bits are those of a mantissa and those beyond it. -/
theorem lt_two_pow_excess (k : Nat) : k < 2 ^ (53 + excess k) := by
  refine Nat.lt_log2_self.trans_le (Nat.pow_le_pow_right (by omega) ?_)
  rw [excess]
  omega

/-- A number with bits beyond those of a mantissa has the first of them. -/
theorem two_pow_excess_le {k : Nat} (h : 0 < excess k) : 2 ^ (52 + excess k) ≤ k := by
  rw [excess] at h ⊢
  have hne : k ≠ 0 := by
    rintro rfl
    simp at h
  refine (Nat.pow_le_pow_right (by omega) ?_).trans (Nat.log2_self_le hne)
  omega

/-- What is kept has the bits of a mantissa, or is rounded up to one bit more. -/
theorem kept_le (k : Nat) : nearest k (excess k) ≤ 2 ^ 53 := by
  refine (nearest_bounds k (excess k)).2.trans ?_
  have hlt : k / 2 ^ excess k < 2 ^ 53 := by
    rw [Nat.div_lt_iff_lt_mul (Nat.two_pow_pos _), ← Nat.pow_add]
    exact lt_two_pow_excess k
  exact hlt

/-- What is kept of a number with more bits has all the bits of a mantissa. -/
theorem le_kept {k : Nat} (h : 0 < excess k) : 2 ^ 52 ≤ nearest k (excess k) := by
  refine Nat.le_trans ?_ (nearest_bounds k (excess k)).1
  rw [Nat.le_div_iff_mul_le (Nat.two_pow_pos _), ← Nat.pow_add]
  exact two_pow_excess_le h

/-- Greater numbers are rounded to greater ones. -/
theorem rounded_le_rounded {k k' : Nat} (h : k ≤ k') :
    nearest k (excess k) * 2 ^ excess k ≤ nearest k' (excess k') * 2 ^ excess k' := by
  have hexcess : excess k ≤ excess k' := excess_le_excess h
  -- Numbers of different size are on different sides of a power of two, and so are the rounded ones.
  rcases Nat.lt_or_eq_of_le hexcess with hlt | heq
  · calc nearest k (excess k) * 2 ^ excess k
        ≤ 2 ^ 53 * 2 ^ excess k := Nat.mul_le_mul_right _ (kept_le k)
      _ = 2 ^ 52 * 2 ^ (excess k + 1) := by rw [Nat.pow_succ']; ring
      _ ≤ nearest k' (excess k') * 2 ^ excess k' :=
        Nat.mul_le_mul (le_kept (by omega)) (Nat.pow_le_pow_right (by omega) hlt)
  · rw [heq]
    exact Nat.mul_le_mul_right _ (nearest_le_nearest _ h)

/-- What a number is rounded to. -/
theorem canonical_rounded (k : Nat) :
    let kept := nearest k (excess k)
    Canonical (kept / 2 ^ excess kept) (excess k + excess kept) ∧
      kept / 2 ^ excess kept * 2 ^ (excess k + excess kept) = kept * 2 ^ excess k := by
  intro kept
  have hle : kept ≤ 2 ^ 53 := kept_le k
  -- A mantissa of ones is rounded up to `2 ^ 53`, which has a bit too many again.
  rcases Nat.lt_or_eq_of_le hle with hlt | heq
  · rw [excess_eq_zero hlt, Nat.pow_zero, Nat.div_one, Nat.add_zero]
    refine ⟨⟨hlt, ?_⟩, rfl⟩
    rcases Nat.eq_zero_or_pos (excess k) with hzero | hpos
    · exact Or.inl hzero
    · exact Or.inr (le_kept hpos)
  · have hone : excess (2 ^ 53) = 1 := by rw [excess, Nat.log2_two_pow]
    rw [heq, hone]
    refine ⟨⟨by decide, Or.inr (by decide)⟩, ?_⟩
    rw [Nat.add_comm, Nat.pow_add, ← Nat.mul_assoc]
    rfl

end Binary64
end VennDiagram
