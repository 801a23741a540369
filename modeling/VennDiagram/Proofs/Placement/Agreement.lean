import Mathlib.Data.Option.Basic
import VennDiagram.Proofs.Number.Order
import VennDiagram.Proofs.Placement.Candidates

/-!
# `VennDiagram.Proofs.Placement.Agreement`: the same circles in another order

Candidates for dots are found by asking every circle, and by least and greatest numbers over circles. If
the circles are the same, in whatever order, the candidates agree one by one: comparing sees no
difference between their coordinates, nor between their scores (`dotCandidates_rel`).

Each stage of the search for candidates keeps this up. The boxes around the circles have equal sides
(`least_map_equals`, `greatest_map_equals`), so a scan takes the same number of steps (`scan_rel`). A
point has the same clearances (`clearance?_eq`), so the least of them, its score, is equal
(`regionScore?_rel`). And ranking only compares scores, so it moves candidates in the same way
(`ranked_rel`).

That needs scores that are numbers. They are if the circles are finite, whatever the rules.
-/

set_option autoImplicit false

namespace VennDiagram

/-- Functions that take related values to related values do so where there may be none. -/
theorem rel_map {β β' γ γ' : Type} {R : β → γ → Prop} {S : β' → γ' → Prop} {f : β → β'} {g : γ → γ'}
    {x : Option β} {y : Option γ} (h : Option.Rel R x y) (hfg : ∀ a b, R a b → S (f a) (g b)) :
    Option.Rel S (x.map f) (y.map g) := by
  cases h with
  | none => exact Option.Rel.none
  | some hab => exact Option.Rel.some (hfg _ _ hab)

/-- Lists that are related one by one are the two sides of a list of related pairs. -/
theorem exists_pairs_of_forall₂ {β γ : Type} {R : β → γ → Prop} {xs : List β} {ys : List γ}
    (h : List.Forall₂ R xs ys) :
    ∃ pairs : List (β × γ), (∀ p ∈ pairs, R p.1 p.2) ∧ pairs.map Prod.fst = xs ∧
      pairs.map Prod.snd = ys := by
  refine ⟨xs.zip ys, fun p hp => List.forall₂_zip h hp, ?_, ?_⟩
  · exact List.map_fst_zip (Nat.le_of_eq h.length_eq)
  · exact List.map_snd_zip (Nat.le_of_eq h.length_eq.symm)

/-- Sorting moves related elements in the same way, if they are compared in the same way. -/
theorem forall₂_mergeSort {β γ : Type} {R : β → γ → Prop} {le : β → β → Bool} {le' : γ → γ → Bool}
    {xs : List β} {ys : List γ} (h : List.Forall₂ R xs ys)
    (hle : ∀ x y, R x y → ∀ x' y', R x' y' → le x x' = le' y y') :
    List.Forall₂ R (xs.mergeSort le) (ys.mergeSort le') := by
  obtain ⟨pairs, hpairs, rfl, rfl⟩ := exists_pairs_of_forall₂ h
  -- Both lists are sorted as the list of pairs is.
  let lePairs (p q : β × γ) : Bool := le p.1 q.1
  have hleft : (pairs.mergeSort lePairs).map Prod.fst = (pairs.map Prod.fst).mergeSort le :=
    List.map_mergeSort fun p _ q _ => rfl
  have hright : (pairs.mergeSort lePairs).map Prod.snd = (pairs.map Prod.snd).mergeSort le' :=
    List.map_mergeSort fun p hp q hq => hle _ _ (hpairs p hp) _ _ (hpairs q hq)
  rw [← hleft, ← hright, List.forall₂_map_left_iff, List.forall₂_map_right_iff, List.forall₂_same]
  exact fun p hp => hpairs p (List.mem_mergeSort.mp hp)

section
variable {α : Type} [Scalar α]

/-- Candidates that comparing does not tell apart. -/
structure DotCandidate.Agrees (a b : DotCandidate α) : Prop where
  x_equals : Equals a.x b.x
  y_equals : Equals a.y b.y
  score_equals : Equals a.score b.score

/-- The grid over the box around circles. -/
def gridAround (step : α) (own : Circle α) (rest : List (Circle α)) : Option (List (α × α)) :=
  gridPoints step
    (Scalar.least (own.x - own.r) (rest.map fun c => c.x - c.r))
    (Scalar.greatest (own.x + own.r) (rest.map fun c => c.x + c.r))
    (Scalar.least (own.y - own.r) (rest.map fun c => c.y - c.r))
    (Scalar.greatest (own.y + own.r) (rest.map fun c => c.y + c.r))

end

section
variable {α : Type} [Scalar α] [LinearScalar α] {rules : Rules α} {members : List String}
  {circles circles' : List (Circle α)} {x x' y y' : α}

/-- A circle to calculate with. -/
structure Circle.IsFinite (c : Circle α) : Prop where
  x : LinearScalar.IsFinite c.x
  y : LinearScalar.IsFinite c.y
  r : LinearScalar.IsFinite c.r

/-! ### Grids -/

/-- Scans between equal ends stop, get stuck or go on together. -/
theorem scan_rel (step : α) {last last' : α} (hlast : Equals last last') (fuel : Nat)
    (hx : Alike x x') :
    Option.Rel (List.Forall₂ Equals) (scan step last fuel x) (scan step last' fuel x') := by
  induction fuel generalizing x x' with
  | zero => exact Option.Rel.none
  | succ fuel ih =>
    -- The next values need not be numbers, so that they are alike is all that is kept up.
    have hnext : Alike (x + step) (x' + step) := LinearScalar.add_alike hx (Alike.refl step)
    rw [scan, scan]
    by_cases hreached : x ≤ last
    · have hreached' : x' ≤ last' := (hx.le_iff hlast.alike).mp hreached
      have hequals : Equals x x' := hx.equals (LinearScalar.le_self_of_le hreached).1
      by_cases hstuck : x + step ≤ x
      · have hstuck' : x' + step ≤ x' := (hnext.le_iff hx).mp hstuck
        simp only [hreached, hreached', hstuck, hstuck', if_true]
        exact Option.Rel.none
      · have hstuck' : ¬ x' + step ≤ x' := fun h => hstuck ((hnext.le_iff hx).mpr h)
        simp only [hreached, hreached', hstuck, hstuck', if_true, if_false]
        exact rel_map (ih hnext) fun _ _ h => List.Forall₂.cons hequals h
    · have hpassed' : ¬ x' ≤ last' := fun h => hreached ((hx.le_iff hlast.alike).mpr h)
      simp only [hreached, hpassed', if_false]
      exact Option.Rel.some List.Forall₂.nil

/-- Scans between equal bounds have equal values, or neither ends. -/
theorem scanBetween_rel (step : α) {first first' last last' : α} (hfirst : Equals first first')
    (hlast : Equals last last') :
    Option.Rel (List.Forall₂ Equals) (scanBetween step first last) (scanBetween step first' last') := by
  rw [scanBetween, scanBetween, LinearScalar.scanBound_eq step hfirst.alike hlast.alike]
  exact scan_rel step hlast _ hfirst.alike

/-- Grids over boxes with equal sides have the same points, up to equality. -/
theorem gridPoints_rel (step : α) {left left' right right' top top' bottom bottom' : α}
    (hleft : Equals left left') (hright : Equals right right') (htop : Equals top top')
    (hbottom : Equals bottom bottom') :
    Option.Rel (List.Forall₂ fun p q : α × α => Equals p.1 q.1 ∧ Equals p.2 q.2)
      (gridPoints step left right top bottom) (gridPoints step left' right' top' bottom') := by
  have hcolumns := scanBetween_rel step hleft hright
  have hrows := scanBetween_rel step htop hbottom
  rw [gridPoints, gridPoints]
  generalize scanBetween step left right = columns at hcolumns
  generalize scanBetween step left' right' = columns' at hcolumns
  -- Without a column the rows are never scanned, so it does not matter whether that scan ends.
  cases hcolumns with
  | none => exact Option.Rel.none
  | some hcolumns =>
    cases hcolumns with
    | nil => exact Option.Rel.some List.Forall₂.nil
    | cons hx hxs =>
      refine rel_map hrows fun ys ys' hys => List.rel_flatMap (List.Forall₂.cons hx hxs) ?_
      intro a b hab
      rw [List.forall₂_map_left_iff, List.forall₂_map_right_iff]
      exact hys.imp fun _ _ h => ⟨hab, h⟩

/-! ### Clearances and scores -/

/-- Clearances do not show which of two equal points is meant. -/
theorem clearance?_eq (hx : Equals x x') (hy : Equals y y') (c : Circle α) :
    clearance? rules members x y c = clearance? rules members x' y' c := by
  have hdistance : Scalar.hypotenuse (x - c.x) (y - c.y) = Scalar.hypotenuse (x' - c.x) (y' - c.y) :=
    LinearScalar.hypotenuse_eq (LinearScalar.sub_alike hx.alike (Alike.refl c.x))
      (LinearScalar.sub_alike hy.alike (Alike.refl c.y))
  simp only [clearance?, hdistance]

/-- The distance from a finite circle to numbers is a number. -/
theorem Circle.IsFinite.distance_le_self {c : Circle α} (hc : c.IsFinite) (hx : x ≤ x) (hy : y ≤ y) :
    c.distance x y ≤ c.distance x y :=
  LinearScalar.hypotenuse_le_self
    (LinearScalar.sub_le_self hx (LinearScalar.le_self_of_isFinite hc.x) (Or.inr hc.x))
    (LinearScalar.sub_le_self hy (LinearScalar.le_self_of_isFinite hc.y) (Or.inr hc.y))

/-- The clearance of a finite circle is a number. -/
theorem clearance?_le_self {c : Circle α} {clearance : α} (hc : c.IsFinite) (hx : x ≤ x) (hy : y ≤ y)
    (h : clearance? rules members x y c = some clearance) : clearance ≤ clearance := by
  have hr := LinearScalar.le_self_of_isFinite hc.r
  have hdistance := hc.distance_le_self hx hy
  rcases clearance?_cases h with ⟨-, -, rfl⟩ | ⟨-, -, rfl⟩
  · exact LinearScalar.sub_le_self hr hdistance (Or.inl hc.r)
  · exact LinearScalar.sub_le_self hdistance hr (Or.inr hc.r)

/-- A point that is accepted by some circles is accepted by the same circles in another order. -/
theorem exists_regionScore?_eq_some (hsame : ∀ c, c ∈ circles' ↔ c ∈ circles)
    (hfinite : ∀ c ∈ circles, c.IsFinite) (hx : x ≤ x) (hy : y ≤ y) {score : α}
    (h : regionScore? rules members circles x y = some score) :
    ∃ score', regionScore? rules members circles' x y = some score' ∧ Equals score score' := by
  obtain ⟨first, rest, hclearances, rfl⟩ := regionScore?_eq_some_iff.mp h
  -- The clearances to the circles in the other order are the same values in another order.
  have hmem : ∀ clearance, clearance ∈ first :: rest ↔
      ∃ c ∈ circles, clearance? rules members x y c = some clearance := by
    intro clearance
    rw [← List.mem_map, hclearances, List.mem_map_of_injective (Option.some_injective α)]
  have hsome : ∀ c ∈ circles', (clearance? rules members x y c).isSome = true := by
    intro c hc
    have hclearance : clearance? rules members x y c ∈ (first :: rest).map some :=
      hclearances ▸ List.mem_map_of_mem ((hsame c).mp hc)
    obtain ⟨clearance, -, heq⟩ := List.mem_map.mp hclearance
    exact Option.isSome_of_eq_some heq.symm
  obtain ⟨values, hvalues⟩ := exists_map_some_eq hsome
  have hmem' : ∀ clearance, clearance ∈ values ↔ clearance ∈ first :: rest := by
    intro clearance
    rw [hmem, ← List.mem_map_of_injective (Option.some_injective α), hvalues, List.mem_map]
    simp only [hsame]
  have hnumbers : ∀ clearance ∈ first :: rest, clearance ≤ clearance := by
    intro clearance hclearance
    obtain ⟨c, hc, heq⟩ := (hmem clearance).mp hclearance
    exact clearance?_le_self (hfinite c hc) hx hy heq
  cases values with
  | nil => exact absurd ((hmem' first).mpr List.mem_cons_self) List.not_mem_nil
  | cons first' rest' =>
    exact ⟨_, regionScore?_eq_some_iff.mpr ⟨first', rest', hvalues.symm, rfl⟩,
      least_equals hnumbers hmem'⟩

/-- Points that are equal have equal scores, and so have the same circles in another order. -/
theorem regionScore?_rel (hsame : ∀ c, c ∈ circles' ↔ c ∈ circles)
    (hfinite : ∀ c ∈ circles, c.IsFinite) (hx : Equals x x') (hy : Equals y y') :
    Option.Rel Equals (regionScore? rules members circles x y)
      (regionScore? rules members circles' x' y') := by
  have hpoint : regionScore? rules members circles' x' y' = regionScore? rules members circles' x y := by
    rw [regionScore?, regionScore?, ← funext (clearance?_eq hx hy)]
  have hfinite' : ∀ c ∈ circles', c.IsFinite := fun c hc => hfinite c ((hsame c).mp hc)
  rw [hpoint]
  -- Acceptance carries over in both directions, so neither order accepts alone.
  cases hscore : regionScore? rules members circles x y with
  | some score =>
    obtain ⟨score', hscore', hequals⟩ :=
      exists_regionScore?_eq_some hsame hfinite hx.le_self hy.le_self hscore
    rw [hscore']
    exact Option.Rel.some hequals
  | none =>
    cases hscore' : regionScore? rules members circles' x y with
    | none => exact Option.Rel.none
    | some score' =>
      obtain ⟨score, hscore'', -⟩ := exists_regionScore?_eq_some (fun c => (hsame c).symm) hfinite'
        hx.le_self hy.le_self hscore'
      exact absurd (hscore.symm.trans hscore'') (Option.some_ne_none score).symm

/-! ### Candidates -/

omit [Scalar α] [LinearScalar α] in
/-- Circles in another order have the same circles of their own. -/
theorem mem_ownCircles_iff (hsame : ∀ c, c ∈ circles' ↔ c ∈ circles) (c : Circle α) :
    c ∈ ownCircles members circles' ↔ c ∈ ownCircles members circles := by
  rw [ownCircles, ownCircles, List.mem_filter, List.mem_filter, hsame]

section
variable {own own' : Circle α} {rest rest' : List (Circle α)} {f : Circle α → α}

/-- The least number over circles does not depend on their order. -/
theorem least_map_equals (hsame : ∀ c, c ∈ own' :: rest' ↔ c ∈ own :: rest)
    (hnumbers : ∀ c ∈ own :: rest, f c ≤ f c) :
    Equals (Scalar.least (f own) (rest.map f)) (Scalar.least (f own') (rest'.map f)) := by
  refine least_equals ?_ fun x => ?_
  · rw [← List.map_cons]
    exact List.forall_mem_map.mpr hnumbers
  · rw [← List.map_cons, ← List.map_cons, List.mem_map, List.mem_map]
    simp only [hsame]

/-- Nor does the greatest. -/
theorem greatest_map_equals (hsame : ∀ c, c ∈ own' :: rest' ↔ c ∈ own :: rest)
    (hnumbers : ∀ c ∈ own :: rest, f c ≤ f c) :
    Equals (Scalar.greatest (f own) (rest.map f)) (Scalar.greatest (f own') (rest'.map f)) := by
  refine greatest_equals ?_ fun x => ?_
  · rw [← List.map_cons]
    exact List.forall_mem_map.mpr hnumbers
  · rw [← List.map_cons, ← List.map_cons, List.mem_map, List.mem_map]
    simp only [hsame]

/-- The grid around circles does not depend on their order, apart from the sign of a zero. -/
theorem gridAround_rel (step : α) (hsame : ∀ c, c ∈ own' :: rest' ↔ c ∈ own :: rest)
    (hfinite : ∀ c ∈ own :: rest, c.IsFinite) :
    Option.Rel (List.Forall₂ fun p q : α × α => Equals p.1 q.1 ∧ Equals p.2 q.2)
      (gridAround step own rest) (gridAround step own' rest') := by
  have hsub {x r : α} (hx : LinearScalar.IsFinite x) (hr : LinearScalar.IsFinite r) : x - r ≤ x - r :=
    LinearScalar.sub_le_self (LinearScalar.le_self_of_isFinite hx)
      (LinearScalar.le_self_of_isFinite hr) (Or.inl hx)
  refine gridPoints_rel step ?_ ?_ ?_ ?_
  · exact least_map_equals hsame fun c hc => hsub (hfinite c hc).x (hfinite c hc).r
  · exact greatest_map_equals hsame fun c hc =>
      LinearScalar.add_le_self (hfinite c hc).x (hfinite c hc).r
  · exact least_map_equals hsame fun c hc => hsub (hfinite c hc).y (hfinite c hc).r
  · exact greatest_map_equals hsame fun c hc =>
      LinearScalar.add_le_self (hfinite c hc).y (hfinite c hc).r

end

/-- The same circles leave the same points of the grid, with equal scores. -/
theorem eligibleDots_rel (hsame : ∀ c, c ∈ circles' ↔ c ∈ circles)
    (hfinite : ∀ c ∈ circles, c.IsFinite) :
    Option.Rel (List.Forall₂ DotCandidate.Agrees) (eligibleDots rules circles members)
      (eligibleDots rules circles' members) := by
  have hsameOwn : ∀ c, c ∈ ownCircles members circles' ↔ c ∈ ownCircles members circles :=
    mem_ownCircles_iff hsame
  have hfiniteOwn : ∀ c ∈ ownCircles members circles, c.IsFinite :=
    fun c hc => hfinite c (List.mem_of_mem_filter hc)
  rw [eligibleDots, eligibleDots]
  generalize ownCircles members circles = owns at hsameOwn hfiniteOwn
  generalize ownCircles members circles' = owns' at hsameOwn
  -- The own circles are the same, so either both lists of them are empty or neither is. Then the boxes
  -- around them have the same sides, and a point the same clearances.
  cases owns with
  | nil =>
    cases owns' with
    | nil => exact Option.Rel.some List.Forall₂.nil
    | cons own' rest' => exact absurd ((hsameOwn own').mp List.mem_cons_self) List.not_mem_nil
  | cons own rest =>
    cases owns' with
    | nil => exact absurd ((hsameOwn own).mpr List.mem_cons_self) List.not_mem_nil
    | cons own' rest' =>
      refine rel_map (gridAround_rel rules.orgGridStep hsameOwn hfiniteOwn)
        fun points points' hpoints => List.rel_filterMap ?_ hpoints
      rintro ⟨x, y⟩ ⟨x', y'⟩ ⟨hx, hy⟩
      exact rel_map (regionScore?_rel hsame hfinite hx hy) fun _ _ hscore => ⟨hx, hy, hscore⟩

/-- Scores that equal others are numbers, and so can be compared. -/
theorem comparable_of_agrees {found found' : List (DotCandidate α)}
    (h : List.Forall₂ DotCandidate.Agrees found found') :
    comparable found = true ∧ comparable found' = true := by
  rw [comparable, comparable]
  induction h with
  | nil => exact ⟨rfl, rfl⟩
  | cons hagrees _ ih =>
    rw [List.all_cons, List.all_cons, ih.1, ih.2, decide_eq_true hagrees.score_equals.le_self,
      decide_eq_true hagrees.score_equals.symm.le_self]
    exact ⟨rfl, rfl⟩

/-- Ranking moves candidates that agree in the same way. -/
theorem ranked_rel {found found' : List (DotCandidate α)}
    (h : List.Forall₂ DotCandidate.Agrees found found') :
    List.Forall₂ DotCandidate.Agrees (ranked found) (ranked found') := by
  obtain ⟨hcomparable, hcomparable'⟩ := comparable_of_agrees h
  rw [ranked, ranked, if_pos hcomparable, if_pos hcomparable']
  refine forall₂_mergeSort h fun a b hab a' b' hab' => ?_
  rw [decide_eq_decide.mpr (Alike.lt_iff hab.score_equals.alike hab'.score_equals.alike)]

/-- Of related lists the same number of elements is kept. -/
theorem keep_rel {β γ : Type} {R : β → γ → Prop} {xs : List β} {ys : List γ} (count : Int)
    (h : List.Forall₂ R xs ys) : List.Forall₂ R (keep count xs) (keep count ys) := by
  rw [keep, keep, h.length_eq]
  split
  · exact List.forall₂_take _ h
  · exact List.forall₂_take _ h

/-- The same circles in another order have candidates that agree. -/
theorem dotCandidates_rel (hsame : ∀ c, c ∈ circles' ↔ c ∈ circles)
    (hfinite : ∀ c ∈ circles, c.IsFinite) (o : Organization) :
    Option.Rel (List.Forall₂ DotCandidate.Agrees) (dotCandidates rules circles o)
      (dotCandidates rules circles' o) :=
  rel_map (eligibleDots_rel hsame hfinite) fun _ _ h => keep_rel _ (ranked_rel h)

end
end VennDiagram
