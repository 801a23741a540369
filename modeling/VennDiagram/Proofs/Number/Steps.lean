import VennDiagram.Proofs.Number.Sums
import VennDiagram.Proofs.Placement.Sweep

/-!
# `VennDiagram.Proofs.Number.Steps`: steps from double to double

A finite double is a whole number of least positive doubles (`units`). Comparing two of them is comparing
these numbers (`le_iff_units`), and a sum is the double nearest to the sum of these numbers
(`place_add_units`).

So adding a step does one of three things. A step of zero or less does not move a double forward
(`add_le_self_of_not_pos`). A positive step does, as long as the double is not more than `2 ^ 52` steps
away from zero (`InReach.lt_add`): doubles of that size are not further apart than a step. Beyond that a
positive step may get lost in rounding.

A scan of doubles that is not stuck comes to an end, because there are no more than `2 ^ 64` doubles
(`AmpleBound Float`), and one that is stuck stays where it is (`steady_of_isFinite`). So a scan with a
positive step ends if its ends are in reach (`exists_passedAfter`), and one with another step does not
(`not_passedAfter`).
-/

set_option autoImplicit false

namespace VennDiagram

namespace Binary64

open Float.Model Float.Model.UnpackedFloat

variable {x y z step first last : Float}

/-! ### Doubles in units -/

/-- A finite double in units of the least positive one. -/
def units (x : Float) : ℤ :=
  match x.toModel.unpack with
  | .finite s m e _ => s.apply ((m * 2 ^ (e + 1074).toNat : ℕ) : ℤ)
  | _ => 0

/-- A finite double is a canonical number, and its units are the integer that this is. -/
theorem exists_units (hx : x.isFinite = true) :
    ∃ s m n, x.toModel.unpack = multiple s m n ∧ Canonical m n ∧ n ≤ 2045 ∧ units x = signed s m n := by
  obtain ⟨s, m, n, hunpacked, hcanonical, hn⟩ := exists_multiple x.toBits.toBitVec hx
  have hunpacked : x.toModel.unpack = multiple s m n := hunpacked
  refine ⟨s, m, n, hunpacked, hcanonical, hn, ?_⟩
  -- Zero is unpacked in its own way, and its sign does not count.
  rcases Nat.eq_zero_or_pos m with rfl | hm
  · have hzero : signed s 0 n = 0 := by
      rw [signed, Nat.zero_mul]
      cases s <;> rfl
    rw [units, hunpacked, hzero]
    rfl
  · have hexponent : ((n : ℤ) - 1074 + 1074).toNat = n := by omega
    rw [units, hunpacked, multiple, dif_neg hm.ne']
    simp only [hexponent, signed]

/-- A double is the one nearest to itself. -/
theorem place_nearestDouble_units (hx : x.isFinite = true) :
    place (nearestDouble (units x)) = place x.toModel.unpack := by
  obtain ⟨s, m, n, hunpacked, hcanonical, hn, hunits⟩ := exists_units hx
  rw [hunits, hunpacked, place_nearestDouble_signed s hcanonical hn]

/-- Finite doubles are in the order of their units. -/
theorem le_iff_units (hx : x.isFinite = true) (hy : y.isFinite = true) : x ≤ y ↔ units x ≤ units y := by
  rw [le_iff_unpack, le_iff_place (unpack_ne_of_isFinite hx) (unpack_ne_of_isFinite hy)]
  constructor
  · intro h
    obtain ⟨s, m, n, hunpacked, hcanonical, -, hunits⟩ := exists_units hx
    obtain ⟨s', m', n', hunpacked', hcanonical', -, hunits'⟩ := exists_units hy
    rw [hunpacked, hunpacked'] at h
    rw [hunits, hunits']
    exact signed_le_of_place_le hcanonical hcanonical' h
  · intro h
    rw [← place_nearestDouble_units hx, ← place_nearestDouble_units hy]
    exact place_nearestDouble_le h

/-- Zero is finite. -/
theorem isFinite_zero : (0 : Float).isFinite = true := by decide +kernel

/-- Zero has no units. -/
theorem units_zero : units 0 = 0 := by decide +kernel

/-- The units of a finite double have its sign. -/
theorem units_nonneg_iff (hx : x.isFinite = true) : 0 ≤ units x ↔ 0 ≤ x := by
  rw [le_iff_units isFinite_zero hx, units_zero]

/-- They are positive exactly if it is. -/
theorem units_pos_iff (hx : x.isFinite = true) : 0 < units x ↔ 0 < x := by
  rw [lt_iff_not_le (le_self_of_isFinite isFinite_zero) (le_self_of_isFinite hx),
    le_iff_units hx isFinite_zero, units_zero, not_le]

/-- A sum is the double nearest to the sum of the units. -/
theorem place_add_units (hx : x.isFinite = true) (hy : y.isFinite = true) :
    place (x + y).toModel.unpack = place (nearestDouble (units x + units y)) := by
  obtain ⟨s, m, n, hunpacked, hcanonical, hn, hunits⟩ := exists_units hx
  obtain ⟨s', m', n', hunpacked', hcanonical', hn', hunits'⟩ := exists_units hy
  rw [unpack_add, hunpacked, hunpacked', hunits, hunits', place_add hcanonical hcanonical' hn hn']

/-- A difference is the double nearest to the difference of the units. -/
theorem place_sub_units (hx : x.isFinite = true) (hy : y.isFinite = true) :
    place (x - y).toModel.unpack = place (nearestDouble (units x - units y)) := by
  obtain ⟨s, m, n, hunpacked, hcanonical, hn, hunits⟩ := exists_units hx
  obtain ⟨s', m', n', hunpacked', hcanonical', hn', hunits'⟩ := exists_units hy
  have hsub : (x - y).toModel.unpack =
      (Float.Model.pack (UnpackedFloat.sub Format.binary64 x.toModel.unpack y.toModel.unpack)).unpack := rfl
  have hneg : signed (-s') m' n' = -signed s' m' n' := apply_neg s' _
  rw [hsub, sub_eq_add_neg, hunpacked, hunpacked', neg_multiple, place_add hcanonical hcanonical' hn hn',
    hunits, hunits', hneg, Int.sub_eq_add_neg]

/-! ### Steps forward -/

/-- A step of zero or less does not move a double forward. -/
theorem add_le_self_of_not_pos (hx : x.isFinite = true) (hstep : step.isFinite = true)
    (hpos : ¬ 0 < step) : x + step ≤ x := by
  rw [← units_pos_iff hstep, not_lt] at hpos
  rw [le_iff_unpack, le_iff_place (unpack_ne_notANumber (add_le_self hx hstep)) (unpack_ne_of_isFinite hx),
    place_add_units hx hstep, ← place_nearestDouble_units hx]
  exact place_nearestDouble_le (by omega)

/-- Taking a double away that is not negative leaves no more than adding it. -/
theorem sub_le_add (hx : x.isFinite = true) (hy : y.isFinite = true) (hnonneg : 0 ≤ y) :
    x - y ≤ x + y := by
  rw [← units_nonneg_iff hy] at hnonneg
  have hdifference := sub_le_self (le_self_of_isFinite hx) (le_self_of_isFinite hy) (Or.inl hx)
  rw [le_iff_unpack,
    le_iff_place (unpack_ne_notANumber hdifference) (unpack_ne_notANumber (add_le_self hx hy)),
    place_sub_units hx hy, place_add_units hx hy]
  exact place_nearestDouble_le (by omega)

/-- A number of at most 53 bits, and some zeros behind them, has a canonical form. -/
theorem exists_canonical {q : ℕ} (hq : q ≤ 2 ^ 53) (j : ℕ) :
    ∃ m n, Canonical m n ∧ m * 2 ^ n = q * 2 ^ j := by
  -- Rounding cuts off no more than the zeros, so it changes nothing.
  have hdvd : 2 ^ excess (q * 2 ^ j) ∣ q * 2 ^ j := by
    rcases Nat.eq_zero_or_pos q with rfl | hpos
    · rw [Nat.zero_mul]
      exact Nat.dvd_zero _
    · rcases Nat.lt_or_eq_of_le hq with hlt | rfl
      · have hlog : q.log2 < 53 := (Nat.log2_lt hpos.ne').mpr hlt
        have hexcess : excess (q * 2 ^ j) ≤ j := by
          rw [excess, log2_mul_pow hpos]
          omega
        exact (Nat.pow_dvd_pow 2 hexcess).trans (Nat.dvd_mul_left _ _)
      · rw [← Nat.pow_add]
        refine Nat.pow_dvd_pow 2 ?_
        rw [excess, Nat.log2_two_pow]
        omega
  obtain ⟨c, hc⟩ := hdvd
  have hkept : nearest (q * 2 ^ j) (excess (q * 2 ^ j)) = c := by
    generalize excess (q * 2 ^ j) = drop at hc
    have hzeros := nearest_mul_pow c 0 drop
    rwa [Nat.zero_add, nearest_zero, Nat.mul_comm, ← hc] at hzeros
  obtain ⟨hcanonical, hrounded⟩ := canonical_rounded (q * 2 ^ j)
  refine ⟨_, _, hcanonical, hrounded.trans ?_⟩
  rw [hkept, Nat.mul_comm]
  exact hc.symm

/-- No finite number is placed as high as infinity. -/
theorem place_multiple_lt_infinity (s : Sign) (m n : ℕ) :
    place (multiple s m n) < place (.infinity .positive) := by
  refine lt_of_le_of_ne (place_le_infinity _) fun h => ?_
  have hinfinity := eq_infinity_of_place_le h.ge
  rw [multiple] at hinfinity
  split at hinfinity <;> exact absurd hinfinity UnpackedFloat.noConfusion

/-- A greater number of at most 53 bits is not rounded down to a double. -/
theorem place_lt_nearestDouble {s t : Sign} {m n q j : ℕ} (h : Canonical m n) (hn : n ≤ 2045)
    (hq : q ≤ 2 ^ 53) (hlt : signed s m n < signed t q j) :
    place (multiple s m n) < place (nearestDouble (signed t q j)) := by
  obtain ⟨k, i, hcanonical, hk⟩ := exists_canonical hq j
  have hsigned : signed t q j = signed t k i := by rw [signed, signed, hk]
  rw [hsigned] at hlt ⊢
  by_cases hi : i ≤ 2045
  · rw [place_nearestDouble_signed t hcanonical hi]
    exact not_le.mp fun hle => absurd (signed_le_of_place_le hcanonical h hle) (not_le.mpr hlt)
  · -- Only a positive number is too great for a double and greater than one.
    cases t with
    | positive =>
      rw [nearestDouble, signed, Sign.apply, if_pos (Int.natCast_nonneg _), Int.toNat_natCast,
        nearestMagnitude_eq_packable _ hcanonical, packable, if_neg hi]
      exact place_multiple_lt_infinity s m n
    | negative =>
      have hless : m * 2 ^ n < k * 2 ^ i := not_le.mp fun hle => by
        rcases (hcanonical.le_iff h).mp hle with hlt | ⟨heq, -⟩ <;> omega
      have hmagnitude : -((m * 2 ^ n : ℕ) : ℤ) ≤ signed s m n := by
        cases s <;> simp only [signed, Sign.apply] <;> omega
      simp only [signed, Sign.apply] at hlt hmagnitude
      omega

/-- The magnitude of a number does not depend on its sign. -/
theorem abs_signed (s : Sign) (m n : ℕ) : |signed s m n| = ((m * 2 ^ n : ℕ) : ℤ) := by
  cases s with
  | positive => exact abs_of_nonneg (Int.natCast_nonneg _)
  | negative => exact (abs_neg _).trans (abs_of_nonneg (Int.natCast_nonneg _))

/-- The next number with the same power of two has at most 53 bits again. -/
theorem exists_next (s : Sign) {m n : ℕ} (h : Canonical m n) :
    ∃ t q, q ≤ 2 ^ 53 ∧ signed t q n = signed s m n + 2 ^ n := by
  have hlt := h.lt
  cases s with
  | positive =>
    refine ⟨.positive, m + 1, hlt, ?_⟩
    simp only [signed, Sign.apply]
    push_cast
    ring
  | negative =>
    cases m with
    | zero => exact ⟨.positive, 1, by decide, by simp [signed, Sign.apply]⟩
    | succ m =>
      refine ⟨.negative, m, by omega, ?_⟩
      simp only [signed, Sign.apply]
      push_cast
      ring

/-- The double is finite and not more than `2 ^ 52` steps away from zero. -/
structure InReach (step x : Float) : Prop where
  finite : x.isFinite = true
  near : |units x| ≤ 2 ^ 52 * units step

instance (step x : Float) : Decidable (InReach step x) :=
  decidable_of_iff (x.isFinite = true ∧ |units x| ≤ 2 ^ 52 * units step)
    ⟨fun h => ⟨h.1, h.2⟩, fun h => ⟨h.finite, h.near⟩⟩

/-- A positive step moves a double forward that is in reach. -/
theorem InReach.lt_add (hreach : InReach step x) (hstep : step.isFinite = true) (hpos : 0 < step) :
    x < x + step := by
  obtain ⟨hx, hnear⟩ := hreach
  rw [← units_pos_iff hstep] at hpos
  obtain ⟨s, m, n, hunpacked, hcanonical, hn, hunits⟩ := exists_units hx
  -- The numbers of the size of `x` are not further apart than a step.
  have hspacing : (2 : ℤ) ^ n ≤ units step := by
    rcases hcanonical.full with rfl | hfull
    · exact hpos
    · rw [hunits, abs_signed] at hnear
      have hfull : (2 : ℤ) ^ 52 * 2 ^ n ≤ ((m * 2 ^ n : ℕ) : ℤ) := by
        exact_mod_cast Nat.mul_le_mul_right _ hfull
      exact le_of_mul_le_mul_left (hfull.trans hnear) (by positivity)
  obtain ⟨t, q, hq, hnext⟩ := exists_next s hcanonical
  have hlt : signed s m n < signed t q n := by
    rw [hnext]
    exact lt_add_of_pos_right _ (by positivity)
  have hplace : place x.toModel.unpack < place (x + step).toModel.unpack := by
    rw [place_add_units hx hstep, hunpacked]
    refine (place_lt_nearestDouble hcanonical hn hq hlt).trans_le (place_nearestDouble_le ?_)
    rw [hnext, hunits]
    exact Int.add_le_add_left hspacing _
  have hsum := add_le_self hx hstep
  rw [lt_iff_not_le (le_self_of_isFinite hx) hsum, le_iff_unpack,
    le_iff_place (unpack_ne_notANumber hsum) (unpack_ne_of_isFinite hx)]
  exact not_le.mpr hplace

/-! ### Scans of doubles -/

/-- Unpacked doubles may be added either way round. Only two finite ones need an argument: any other
sum is chosen by what the two are. -/
theorem unpacked_add_comm (u v : UnpackedFloat) :
    UnpackedFloat.add Format.binary64 u v = UnpackedFloat.add Format.binary64 v u := by
  cases u with
  | notANumber => cases v <;> rfl
  | infinity s =>
    cases v with
    | infinity s' => cases s <;> cases s' <;> rfl
    | _ => rfl
  | zero s =>
    cases v with
    | zero s' => cases s <;> cases s' <;> rfl
    | _ => rfl
  | finite s m e hm =>
    cases v with
    | finite s' m' e' hm' =>
      simp only [UnpackedFloat.add, Int.min_comm e' e]
      rw [Int.add_comm]
    | _ => rfl

/-- Doubles may be added in either order. -/
theorem add_comm (x y : Float) : x + y = y + x := by
  show Float.ofModel (Float.Model.pack (UnpackedFloat.add _ _ _)) = _
  rw [unpacked_add_comm]
  rfl

/-- A finite step keeps the order. -/
theorem steady_of_isFinite (hstep : step.isFinite = true) : Steady step := by
  intro x y hback hy
  have hle : y + step ≤ x + step := by
    rw [add_comm y, add_comm x]
    exact add_le_add hstep hy
  exact LinearScalar.le_trans hle hback

/-- Doubles are told apart by their bits. -/
theorem eq_of_toBits_eq (h : x.toModel.toBits = y.toModel.toBits) : x = y := by
  obtain ⟨⟨bits, hbits⟩⟩ := x
  obtain ⟨⟨bits', hbits'⟩⟩ := y
  obtain rfl : bits = bits' := h
  rfl

/-- A list of doubles that increase is not longer than there are doubles. -/
theorem length_le_of_pairwise_lt {xs : List Float} (hxs : xs.Pairwise (· < ·)) : xs.length ≤ 2 ^ 64 := by
  have hbits : (xs.map fun x => x.toModel.toBits.toFin).Nodup := by
    rw [List.nodup_iff_pairwise_ne, List.pairwise_map]
    refine hxs.imp fun {x y} hlt heq => ?_
    obtain rfl : x = y := eq_of_toBits_eq (UInt64.toFin_inj.mp heq)
    have hx := (LinearScalar.le_self_of_lt hlt).1
    exact (OrderedScalar.lt_iff_not_le x x hx hx).mp hlt hx
  have hlength := hbits.length_le_card
  rwa [List.length_map, Fintype.card_fin] at hlength

instance : AmpleBound Float where
  le_scanBound {step first _ n} _ hlt := by
    rw [← length_scanValues step first n]
    exact length_le_of_pairwise_lt (pairwise_scanValues hlt)

/-- What lies between finite doubles is finite. -/
theorem isFinite_of_le_of_le (hx : x.isFinite = true) (hy : y.isFinite = true) (hxz : x ≤ z)
    (hzy : z ≤ y) : z.isFinite = true := by
  obtain ⟨hxnumber, hznumber⟩ := unpack_ne_of_le hxz
  obtain ⟨-, hynumber⟩ := unpack_ne_of_le hzy
  rw [le_iff_unpack, le_iff_place hxnumber hznumber] at hxz
  rw [le_iff_unpack, le_iff_place hznumber hynumber] at hzy
  have hxfinite : x.toModel.unpack.isFinite = true := hx
  have hyfinite : y.toModel.unpack.isFinite = true := hy
  -- A number that is not finite lies at one of the two ends, and takes a bound along with it.
  rcases finite_of_place_le hxnumber hznumber hxz with hleast | hgreatest | ⟨-, hz⟩
  · rw [hleast] at hxfinite
    exact absurd hxfinite Bool.false_ne_true
  · rw [hgreatest] at hzy
    rw [eq_infinity_of_place_le hzy] at hyfinite
    exact absurd hyfinite Bool.false_ne_true
  · exact hz

/-- A step that moves both ends of a range moves everything between them. -/
theorem InReach.between (hfirst : InReach step first) (hlast : InReach step last) (hfirstx : first ≤ x)
    (hxlast : x ≤ last) : InReach step x := by
  have hx := isFinite_of_le_of_le hfirst.finite hlast.finite hfirstx hxlast
  refine ⟨hx, ?_⟩
  rw [le_iff_units hfirst.finite hx] at hfirstx
  rw [le_iff_units hx hlast.finite] at hxlast
  exact abs_le.mpr ⟨(abs_le.mp hfirst.near).1.trans hfirstx, hxlast.trans (abs_le.mp hlast.near).2⟩

/-- A scan with a positive step ends if both of its ends are in reach. -/
theorem exists_passedAfter (hstep : step.isFinite = true) (hpos : 0 < step) (hfirst : InReach step first)
    (hlast : InReach step last) : ∃ n, PassedAfter step last first n := by
  refine exists_passedAfter_of_forward (le_self_of_isFinite hfirst.finite) fun x hfirstx hxlast => ?_
  have hx := hfirst.between hlast hfirstx hxlast
  exact hx.lt_add hstep hpos

/-- A scan with another step does not end if it begins. -/
theorem not_passedAfter (hstep : step.isFinite = true) (hpos : ¬ 0 < step) (hfinite : first.isFinite = true)
    (hle : first ≤ last) (n : ℕ) : ¬ PassedAfter step last first n :=
  (steady_of_isFinite hstep).not_passedAfter (add_le_self_of_not_pos hfinite hstep hpos) hle

end Binary64

end VennDiagram
