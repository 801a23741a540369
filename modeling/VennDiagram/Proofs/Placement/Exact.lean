import Mathlib.Algebra.Order.Floor.Semiring
import Mathlib.Analysis.SpecialFunctions.Trigonometric.Basic
import VennDiagram.Proofs.Placement.Outcome
import VennDiagram.Proofs.Placement.Sweep

/-!
# `VennDiagram.Proofs.Placement.Exact`: exact arithmetic

The geometry does not ask whether its numbers round. The real numbers are a type of numbers for it too,
with an order that addition keeps, and what is laid out over them is what the rules say.

Nothing but the hypotenuse says how far apart two points are, and any other function of the legs may
stand in its place (`Scalar.withDistance`).

Without rounding every step is as long as the others, so a scan with a positive step gives every value of
the form `first + i * step` that is not beyond the last one (`exists_scanBetween`). A grid has every point
that is a number of steps to the right of the top left of its box, and a number of steps below it, as far
as the box goes (`exists_gridPoints`). So a positive step is all that a document needs for its scans to
end (`Document.scansEnd_of_pos`).
-/

set_option autoImplicit false

namespace VennDiagram

/-- How far a number lies outside the interval between two bounds, in whatever order they come. -/
noncomputable def outside (bound₁ bound₂ v : ℝ) : ℝ :=
  max (max (min bound₁ bound₂ - v) (v - max bound₁ bound₂)) 0

/-- Real numbers, without rounding. -/
noncomputable instance : Scalar ℝ where
  ofInt n := n
  pi := Real.pi
  sine := Real.sin
  cosine := Real.cos
  hypotenuse x y := Real.sqrt (x * x + y * y)
  boxDistance left top right bottom x y := Real.sqrt (outside left right x ^ 2 + outside top bottom y ^ 2)
  scanBound first last step := ⌊(last - first) / step⌋₊ + 1
  decLt x y := Real.decidableLT x y
  decLe x y := Real.decidableLE x y

instance : OrderedAddition ℝ where
  lt_of_lt_of_le _ _ _ := lt_of_lt_of_le
  add_lt_of_le _ _ z _ h := lt_of_le_of_lt (add_le_add_right h z)

/-- Real numbers, with any function for the distance between points. -/
@[reducible] noncomputable def Scalar.withDistance (distance : ℝ → ℝ → ℝ) : Scalar ℝ :=
  { (inferInstance : Scalar ℝ) with hypotenuse := distance }

section
variable {distance : ℝ → ℝ → ℝ}

/-! ### Numbers -/

/-- Real numbers are alike only if they are the same. -/
theorem alike_iff_eq {x y : ℝ} : @Alike ℝ (.withDistance distance) x y ↔ x = y :=
  ⟨fun h => h.elim id fun h => le_antisymm h.1 h.2, Or.inl⟩

instance : @LinearScalar ℝ (.withDistance distance) :=
  letI := Scalar.withDistance distance
  { lt_iff_not_le := fun _ _ _ _ => not_le.symm
    IsFinite := fun _ => True
    le_self_of_le := fun _ => ⟨le_refl (α := ℝ) _, le_refl (α := ℝ) _⟩
    le_self_of_lt := fun _ => ⟨le_refl (α := ℝ) _, le_refl (α := ℝ) _⟩
    le_trans := fun h h' => le_trans (α := ℝ) h h'
    le_total := fun _ _ => le_total (α := ℝ) _ _
    add_alike := fun hx hy => by rw [alike_iff_eq] at *; rw [hx, hy]
    sub_alike := fun hx hy => by rw [alike_iff_eq] at *; rw [hx, hy]
    hypotenuse_eq := fun hx hy => by rw [alike_iff_eq] at hx hy; rw [hx, hy]
    scanBound_eq := fun _ hx hy => by rw [alike_iff_eq] at hx hy; rw [hx, hy]
    le_self_of_isFinite := fun _ => le_refl (α := ℝ) _
    add_le_self := fun _ _ => le_refl (α := ℝ) _
    sub_le_self := fun _ _ _ => le_refl (α := ℝ) _
    hypotenuse_le_self := fun _ _ => le_refl (α := ℝ) _ }

/-! ### Scans -/

/-- Over the reals a scan goes on in equal steps. -/
theorem scanValue_eq (step x : ℝ) (i : ℕ) :
    @scanValue ℝ (.withDistance distance) step x i = x + i * step := by
  let _ := Scalar.withDistance distance
  induction i with
  | zero => simp
  | succ i ih =>
    rw [scanValue_succ, ih, Nat.cast_succ]
    ring

/-- A step that goes back or nowhere does so from everywhere. -/
theorem steady (step : ℝ) : @Steady ℝ (.withDistance distance) step := by
  intro x y (hback : x + step ≤ x) (hy : y ≤ x)
  show y + step ≤ x
  linarith

/-- Not more steps fit in between than their length says. -/
instance : @AmpleBound ℝ (.withDistance distance) := by
  let _ := Scalar.withDistance distance
  refine ⟨fun {step first last n} hle hlt => ?_⟩
  show n ≤ ⌊(last - first) / step⌋₊ + 1
  rcases n with _ | _ | n
  · exact Nat.zero_le _
  · exact Nat.le_add_left 1 _
  have hstep : 0 < step := by
    have hfirst : first < first + step := hlt 0 (by omega)
    linarith
  have hlast : first + (n + 1 : ℕ) * step ≤ last := by
    have hlast := hle (n + 1) (by omega)
    rwa [scanValue_eq] at hlast
  have hfits : ((n + 1 : ℕ) : ℝ) ≤ (last - first) / step := by
    rw [le_div_iff₀ hstep]
    linarith
  exact Nat.succ_le_succ (Nat.le_floor hfits)

/-- A scan with a positive step ends, and gives the values up to the last one. -/
theorem exists_scanBetween (distance : ℝ → ℝ → ℝ) {step : ℝ} (hstep : 0 < step) (first last : ℝ) :
    ∃ xs, @scanBetween ℝ (.withDistance distance) step first last = some xs ∧
      ∀ x, x ∈ xs ↔ ∃ i : ℕ, x = first + i * step ∧ x ≤ last := by
  let _ := Scalar.withDistance distance
  have hpasses : ∃ n, ¬ scanValue step first n ≤ last := by
    obtain ⟨n, hn⟩ := exists_lt_nsmul hstep (last - first)
    refine ⟨n, ?_⟩
    rw [scanValue_eq, ← nsmul_eq_mul]
    show ¬ first + n • step ≤ last
    linarith
  obtain ⟨n, hpassed⟩ := exists_passedAfter_iff.mpr hpasses
  refine ⟨_, (scanBetween_eq_some_iff (steady step)).mpr ⟨n, hpassed, rfl⟩, fun x => ?_⟩
  rw [scanValues_eq_map, List.mem_map]
  constructor
  · rintro ⟨i, hi, rfl⟩
    exact ⟨i, scanValue_eq step first i, hpassed.le i (List.mem_range.mp hi)⟩
  · rintro ⟨i, rfl, hlast⟩
    refine ⟨i, List.mem_range.mpr ?_, scanValue_eq step first i⟩
    -- What is not passed comes before what is.
    have hbelow : first + i * step < first + n * step := by
      refine lt_of_le_of_lt hlast (not_le.mp ?_)
      have hpassed := hpassed.passed
      rwa [scanValue_eq] at hpassed
    have hcount : (i : ℝ) < n := by
      rw [add_lt_add_iff_left] at hbelow
      exact lt_of_mul_lt_mul_right hbelow hstep.le
    exact_mod_cast hcount

/-- A grid has the points that lie a number of steps to the right of its first point and a number of
steps below, as far as the box goes. -/
theorem exists_gridPoints (distance : ℝ → ℝ → ℝ) {step : ℝ} (hstep : 0 < step) (left right top bottom : ℝ) :
    ∃ points, @gridPoints ℝ (.withDistance distance) step left right top bottom = some points ∧
      ∀ x y, (x, y) ∈ points ↔
        (∃ i : ℕ, x = left + i * step ∧ x ≤ right) ∧ ∃ j : ℕ, y = top + j * step ∧ y ≤ bottom := by
  let _ := Scalar.withDistance distance
  obtain ⟨xs, hxs, hmem⟩ := exists_scanBetween distance hstep left right
  obtain ⟨ys, hys, hmem'⟩ := exists_scanBetween distance hstep top bottom
  refine ⟨xs.flatMap fun x => ys.map (x, ·), ?_, fun x y => ?_⟩
  · rw [gridPoints, hxs]
    -- The heights are only asked for where there is a point across; without one the scan of them is
    -- never run.
    cases xs with
    | nil => rfl
    | cons x xs => exact congrArg (Option.map _) hys
  · rw [← hmem, ← hmem']
    simp [List.mem_flatMap]

end

/-- Over the real numbers a positive step is enough for every scan to end. -/
theorem Document.scansEnd_of_pos {rules : Rules ℝ} (hstep : 0 < rules.orgGridStep) (d : Document ℝ)
    (width height : Option ℝ) : d.ScansEnd rules width height := by
  have hdots : ∀ o ∈ d.organizations,
      (dotCandidates rules (d.fixedCircles rules width height) o).isSome = true := by
    intro o _
    rw [dotCandidates, Option.isSome_map, eligibleDots]
    split
    · rfl
    · obtain ⟨points, hpoints, -⟩ := exists_gridPoints Scalar.hypotenuse hstep _ _ _ _
      rw [Option.isSome_map]
      exact Option.isSome_of_eq_some hpoints
  obtain ⟨dots, heq⟩ := exists_map_some_eq hdots
  rw [ScansEnd, allDotCandidates, mapM_eq_some_iff.mpr heq.symm]
  rfl

end VennDiagram
