import VennDiagram.Proofs.Number.Sums
import VennDiagram.Proofs.Placement.Outcome

/-!
# `VennDiagram.Proofs.Placement.Relaxing`: asking for less

A document asks for less if organizations are deleted from it, and rules ask for less if dots and labels
may come closer to each other. Neither can turn a layout that was found into a fallback
(`optimize_relaxes`), as long as the circles come with the document: otherwise they are made for the
organizations that there are.

Candidates do not depend on the distances to other candidates. Those of the remaining organizations are
the same as before, so a choice that was feasible stays feasible when the picks of the deleted
organizations are dropped (`exists_feasibleFor_of_sublist`). Lower distances let fewer candidates overlap
(`Rules.Relaxes.dotsOverlap_eq_false`, `Rules.Relaxes.labelsConflict_eq_false`). That is so for numbers
with an order that addition keeps: for exact ones, and for doubles, since rounding keeps the order.
-/

set_option autoImplicit false

namespace VennDiagram

open Encoding (Apart)

/-! ### Fewer entities, fewer overlaps -/

/-- What is related to a list one by one has a part that is related to a part of the list. -/
theorem exists_sublist_forall₂ {β γ : Type} {R : β → γ → Prop} {xs xs' : List β} {ys : List γ}
    (h : List.Forall₂ R xs ys) (hsublist : xs'.Sublist xs) :
    ∃ ys', ys'.Sublist ys ∧ List.Forall₂ R xs' ys' := by
  induction hsublist generalizing ys with
  | slnil =>
    obtain rfl := List.forall₂_nil_left_iff.mp h
    exact ⟨[], List.Sublist.slnil, List.Forall₂.nil⟩
  | cons x _ ih =>
    obtain ⟨y, rest, -, hrest, rfl⟩ := List.forall₂_cons_left_iff.mp h
    obtain ⟨ys', hys', hrelated⟩ := ih hrest
    exact ⟨ys', hys'.cons y, hrelated⟩
  | cons_cons x _ ih =>
    obtain ⟨y, rest, hxy, hrest, rfl⟩ := List.forall₂_cons_left_iff.mp h
    obtain ⟨ys', hys', hrelated⟩ := ih hrest
    exact ⟨y :: ys', hys'.cons_cons y, List.Forall₂.cons hxy hrelated⟩

section
variable {β : Type} {overlap overlap' : β → β → Bool} {candidates candidates' : List (List β)}

/-- A feasible choice is left when entities go away and candidates stop to overlap. -/
theorem exists_feasibleFor_of_sublist
    (hoverlap : ∀ x y, overlap x y = false → overlap' x y = false)
    (hsublist : candidates'.Sublist candidates)
    (h : ∃ choice, FeasibleFor overlap candidates choice) :
    ∃ choice, FeasibleFor overlap' candidates' choice := by
  obtain ⟨picked, hpicked, hapart⟩ := exists_feasibleFor_iff.mp h
  obtain ⟨picked', hpickedSublist, hpicked'⟩ := exists_sublist_forall₂ hpicked hsublist
  refine exists_feasibleFor_iff.mpr ⟨picked', hpicked', ?_⟩
  have hfewer : Apart overlap (picked'.map Option.toList) :=
    hapart.sublist (hpickedSublist.map Option.toList)
  exact hfewer.imp fun hclear x hx y hy => hoverlap x y (hclear x hx y hy)

/-- The first candidates can be picked. -/
theorem forall₂_picked_head? (candidates : List (List β)) :
    List.Forall₂ Picked candidates (candidates.map List.head?) := by
  rw [List.forall₂_map_right_iff, List.forall₂_same]
  intro xs _
  cases xs with
  | nil => rfl
  | cons x xs => exact List.mem_cons_self

/-- A single entity has a feasible choice. -/
theorem exists_feasibleFor_singleton (xs : List β) : ∃ choice, FeasibleFor overlap [xs] choice :=
  exists_feasibleFor_iff.mpr ⟨_, forall₂_picked_head? [xs], List.pairwise_singleton _ _⟩

end

/-! ### Documents and rules -/

section
variable {α : Type}

/-- The document without some of its organizations. -/
structure Document.Deletes (d d' : Document α) : Prop where
  categories_eq : d'.categories = d.categories
  organizations_sublist : d'.organizations.Sublist d.organizations

variable [Scalar α] {rules rules' : Rules α}

/-- The same rules, but for the distances that dots and labels keep from each other: these are not
greater than before. -/
structure Rules.Relaxes (rules rules' : Rules α) : Prop where
  rules_eq : rules' = { rules with
    minOrgSeparation := rules'.minOrgSeparation
    labelPadding := rules'.labelPadding }
  minOrgSeparation_le : rules'.minOrgSeparation ≤ rules.minOrgSeparation
  labelPadding_le : rules'.labelPadding ≤ rules.labelPadding

namespace Rules.Relaxes

/-- Relaxing moves no candidate of a dot. -/
theorem dotCandidates_eq (h : rules.Relaxes rules') (circles : List (Circle α)) (o : Organization) :
    dotCandidates rules' circles o = dotCandidates rules circles o := by
  rw [h.rules_eq]
  rfl

/-- It moves no candidate of a label. -/
theorem labelCandidates_eq (h : rules.Relaxes rules') (c : Circle α) :
    labelCandidates rules' c = labelCandidates rules c := by
  rw [h.rules_eq]
  rfl

/-- Nor does it change the box of a text. -/
theorem textBox_eq (h : rules.Relaxes rules') (text : String) (x y : α) :
    TextBox.of rules' text x y = TextBox.of rules text x y := by
  rw [h.rules_eq]
  rfl

variable [OrderedAddition α]

/-- Dots that were far enough apart still are. -/
theorem dotsOverlap_eq_false (h : rules.Relaxes rules') {a b : DotCandidate α}
    (hclear : Encoding.dotsOverlap rules a b = false) : Encoding.dotsOverlap rules' a b = false := by
  rw [Encoding.dotsOverlap, tooClose, decide_eq_false_iff_not] at hclear ⊢
  intro hclose
  exact hclear (OrderedAddition.lt_of_lt_of_le _ _ _ hclose h.minOrgSeparation_le)

/-- Boxes that were further apart than the padding still are. -/
theorem apart_of_apart (h : rules.Relaxes rules') {a b : TextBox α}
    (hapart : a.apart rules.labelPadding b = true) : a.apart rules'.labelPadding b = true := by
  have hless (side bound : α) (hside : side + rules.labelPadding < bound) :
      side + rules'.labelPadding < bound :=
    OrderedAddition.add_lt_of_le _ _ _ _ h.labelPadding_le hside
  simp only [TextBox.apart, Bool.or_eq_true, decide_eq_true_eq] at hapart ⊢
  exact hapart.imp (.imp (.imp (hless _ _) (hless _ _)) (hless _ _)) (hless _ _)

/-- Labels that did not overlap still do not. -/
theorem labelsConflict_eq_false (h : rules.Relaxes rules') {a b : String × LabelCandidate α}
    (hclear : Encoding.labelsConflict rules a b = false) :
    Encoding.labelsConflict rules' a b = false := by
  rw [Encoding.labelsConflict, labelsOverlap, Bool.not_eq_false'] at hclear ⊢
  rw [h.textBox_eq, h.textBox_eq]
  exact h.apart_of_apart hclear

end Rules.Relaxes

/-! ### Layouts -/

/-- Circles that come with the document depend on nothing else. -/
theorem Document.Deletes.fixedCircles_eq {d d' : Document α} (h : d.Deletes d')
    (hgeometry : ∀ c ∈ d.categories, c.hasGeometry = true) (width height width' height' : Option α) :
    d'.fixedCircles rules' width' height' = d.fixedCircles rules width height := by
  have hgeometry' : ∀ c ∈ d'.categories, c.hasGeometry = true := by
    rw [h.categories_eq]
    exact hgeometry
  rw [← map_some_inj, map_some_fixedCircles hgeometry, map_some_fixedCircles hgeometry',
    h.categories_eq]

/-- A layout is found by deciding when the scans end and there is a feasible choice. -/
theorem optimize_sat_iff {d : Document α} {width height : Option α} {elapsed : Float} :
    (∃ l, optimize rules d width height elapsed = .ok l ∧ l.method = .sat) ↔
      ∃ dots, allDotCandidates rules (d.fixedCircles rules width height) d.organizations = some dots ∧
        ∃ c : Choice, c.Feasible rules (d.fixedCircles rules width height) dots
          ((d.fixedCircles rules width height).map (labelCandidates rules)) := by
  cases hdots : allDotCandidates rules (d.fixedCircles rules width height) d.organizations with
  | none =>
    have herror : optimize rules d width height elapsed = .error .endlessScan := by
      rw [Document.fixedCircles, Rules.canvasCenter] at hdots
      simp only [optimize, Run.start, hdots]
    simp [herror]
  | some dots =>
    obtain ⟨statistics, ⟨c, hleast, hlayout⟩ | ⟨hnone, hlayout⟩⟩ := optimize_cases elapsed hdots
    · exact iff_of_true ⟨_, hlayout, rfl⟩ ⟨dots, rfl, c, hleast.feasible⟩
    · refine iff_of_false ?_ ?_
      · rintro ⟨l, hl, hmethod⟩
        obtain rfl := Except.ok.inj (hlayout.symm.trans hl)
        exact absurd hmethod (by simp [fallback])
      · rintro ⟨found, hfound, c, hc⟩
        obtain rfl := Option.some.inj hfound
        exact hnone c hc

/-- Asking for less never loses a layout that was found. -/
theorem optimize_relaxes [OrderedAddition α] {d d' : Document α} {width height width' height' : Option α}
    {elapsed elapsed' : Float} (hgeometry : ∀ c ∈ d.categories, c.hasGeometry = true)
    (hrules : rules.Relaxes rules') (hdeletes : d.Deletes d')
    (hsat : ∃ l, optimize rules d width height elapsed = .ok l ∧ l.method = .sat) :
    ∃ l, optimize rules' d' width' height' elapsed' = .ok l ∧ l.method = .sat := by
  obtain ⟨dots, hdots, hfeasible⟩ := optimize_sat_iff.mp hsat
  -- The categories have their own geometry, so the circles do not depend on the organizations, on the
  -- rules or on the size of the page.
  have hcircles : d'.fixedCircles rules' width' height' = d.fixedCircles rules width height :=
    hdeletes.fixedCircles_eq hgeometry width height width' height'
  have hlabels : labelCandidates rules' = labelCandidates rules := funext hrules.labelCandidates_eq
  rw [optimize_sat_iff, hcircles, hlabels]
  obtain ⟨dots', hsublist, hdots'⟩ := exists_sublist_forall₂ (allDotCandidates_eq_some_iff.mp hdots)
    hdeletes.organizations_sublist
  refine ⟨dots', ?_, ?_⟩
  · rw [allDotCandidates_eq_some_iff]
    exact hdots'.imp fun o found hfound => (hrules.dotCandidates_eq _ o).trans hfound
  · rw [Choice.exists_feasible_iff] at hfeasible ⊢
    exact ⟨exists_feasibleFor_of_sublist (fun _ _ => hrules.dotsOverlap_eq_false) hsublist hfeasible.1,
      exists_feasibleFor_of_sublist (fun _ _ => hrules.labelsConflict_eq_false) (List.Sublist.refl _)
        hfeasible.2⟩

end

/-- Two organizations in one circle, of which one is deleted. -/
theorem optimize_relaxes_two_dots :
    let categories : List (Category Float) := [⟨"A", "red", some 200, some 200, some 60⟩]
    let a : Organization := ⟨"a", ["A"], none, none⟩
    let b : Organization := ⟨"b", ["A"], none, none⟩
    let d : Document Float := ⟨categories, [a, b]⟩
    let d' : Document Float := ⟨categories, [b]⟩
    let rules := Rules.standard
    let rules' : Rules Float := { rules with minOrgSeparation := 30, labelPadding := 10 }
    (∀ c ∈ d.categories, c.hasGeometry = true) ∧ rules.Relaxes rules' ∧ d.Deletes d' ∧
      (∃ l, optimize rules d none none 0 = .ok l ∧ l.method = .sat) ∧
      ∃ l, optimize rules' d' none none 0 = .ok l ∧ l.method = .sat := by
  intro categories a b d d' rules rules'
  have hgeometry : ∀ c ∈ d.categories, c.hasGeometry = true := by decide
  have hrules : rules.Relaxes rules' := ⟨rfl, by decide +kernel, by decide +kernel⟩
  have hdeletes : d.Deletes d' := ⟨rfl, (List.Sublist.refl _).cons a⟩
  have hsat : ∃ l, optimize rules d none none 0 = .ok l ∧ l.method = .sat := by
    have hlabels : ∃ choice, FeasibleFor (Encoding.labelsConflict rules)
        (Encoding.named (d.fixedCircles rules none none)
          ((d.fixedCircles rules none none).map (labelCandidates rules))) choice :=
      exists_feasibleFor_singleton _
    -- The grid has points above and below the centre that are far enough apart.
    let above : DotCandidate Float := ⟨200, 160, 20⟩
    let below : DotCandidate Float := ⟨200, 240, 20⟩
    have hgrid : (eligibleDots rules (d.fixedCircles rules none none) ["A"]).any
        (fun found => decide (found.length ≤ 100 ∧ above ∈ found ∧ below ∈ found)) = true := by
      decide +kernel
    have hclear : Encoding.dotsOverlap rules above below = false := by decide +kernel
    obtain ⟨eligible, heligible, hfits⟩ := (Option.any_eq_true _ _).mp hgrid
    obtain ⟨hlength, habove, hbelow⟩ := of_decide_eq_true hfits
    obtain ⟨found, hfound⟩ : ∃ found, dotCandidates rules (d.fixedCircles rules none none) a = some found :=
      ⟨_, congrArg (Option.map _) heligible⟩
    have hperm : found.Perm eligible := dotCandidates_perm heligible (Int.ofNat_le.mpr hlength) hfound
    have hdots : ∃ choice, FeasibleFor (Encoding.dotsOverlap rules) [found, found] choice :=
      exists_feasibleFor_iff.mpr ⟨[some above, some below],
        .cons (hperm.mem_iff.mpr habove) (.cons (hperm.mem_iff.mpr hbelow) .nil),
        by simpa [Encoding.Apart] using hclear⟩
    exact optimize_sat_iff.mpr ⟨[found, found],
      allDotCandidates_eq_some_iff.mpr (.cons hfound (.cons hfound .nil)),
      Choice.exists_feasible_iff.mpr ⟨hdots, hlabels⟩⟩
  exact ⟨hgeometry, hrules, hdeletes, hsat, optimize_relaxes hgeometry hrules hdeletes hsat⟩

end VennDiagram
