import VennDiagram.Proofs.Placement.Least

/-!
# `VennDiagram.Proofs.Placement.Independence`: dots and labels are chosen independently

Organizations conflict with organizations and labels with labels, so a choice is feasible when its two
halves are (`Choice.feasible_iff`). The vector of a choice is that of its first half followed by that of
its second half, and all choices that fit have halves of the same lengths. So a choice is the least
feasible one exactly if each half is (`Choice.isLeast_iff`). Since deciding an encoding finds the least
feasible choice, no trace of one half can be seen in what is found for the other, although the search
goes back and forth over the selectors of both (`encode_independent`).
-/

set_option autoImplicit false

namespace VennDiagram

/-! ### One kind of entity -/

section
variable {β : Type} {overlap : β → β → Bool} {candidates : List (List β)}
  {choice other : List (Option Nat)}

/-- The choice names a candidate for every entity that has one, and none of the chosen candidates
overlap. -/
structure FeasibleFor (overlap : β → β → Bool) (candidates : List (List β))
    (choice : List (Option Nat)) : Prop where
  fits : List.Forall₂ Fits (candidates.map List.length) choice
  apart : Encoding.Apart overlap ((picks candidates choice).map Option.toList)

/-- The feasible choice whose numbers come before those of all others. -/
structure LeastFor (overlap : β → β → Bool) (candidates : List (List β))
    (choice : List (Option Nat)) : Prop where
  feasible : FeasibleFor overlap candidates choice
  least : ∀ other, FeasibleFor overlap candidates other → other ≠ choice →
    choice.reduceOption < other.reduceOption

/-- There is one least choice at most. -/
theorem LeastFor.unique (h : LeastFor overlap candidates choice)
    (h' : LeastFor overlap candidates other) : other = choice := by
  by_contra hne
  have hlt := h.least other h'.feasible hne
  have hgt := h'.least choice h.feasible (Ne.symm hne)
  exact List.lt_irrefl _ (List.lt_trans hlt hgt)

/-- Choices that fit the same candidates choose equally many. -/
theorem length_reduceOption_of_fits {sizes : List Nat} (h : List.Forall₂ Fits sizes choice)
    (h' : List.Forall₂ Fits sizes other) : choice.reduceOption.length = other.reduceOption.length := by
  induction h generalizing other with
  | nil =>
    cases h'
    rfl
  | @cons size k _ ks hk _ ih =>
    cases h' with
    | @cons _ k' _ ks' hk' hks' =>
      have hrest := ih hks'
      -- A group without variables has nothing to choose in either list, any other one has something in
      -- both.
      cases k with
      | none =>
        cases k' with
        | none => simpa only [List.reduceOption_cons_of_none] using hrest
        | some j => exact absurd hk (Nat.ne_of_gt (Nat.zero_lt_of_lt hk'))
      | some i =>
        cases k' with
        | none => exact absurd hk' (Nat.ne_of_gt (Nat.zero_lt_of_lt hk))
        | some j => simpa only [List.reduceOption_cons_of_some, List.length_cons] using
            congrArg (· + 1) hrest

/-- Entities without candidates have a feasible choice. -/
theorem feasibleFor_of_forall_eq_nil (hnone : ∀ xs ∈ candidates, xs = []) :
    FeasibleFor overlap candidates (candidates.map fun _ => none) where
  fits := by
    rw [List.forall₂_map_left_iff, List.forall₂_map_right_iff, List.forall₂_same]
    intro xs hxs
    rw [hnone xs hxs]
    rfl
  apart := by
    refine List.pairwise_of_forall_mem_list fun first hfirst second _ x hx => ?_
    -- Nothing is picked, so there is nothing that could overlap.
    obtain ⟨pick, hpick, rfl⟩ := List.mem_map.mp hfirst
    rw [picks, List.zipWith_map_right, List.zipWith_self] at hpick
    obtain ⟨xs, -, rfl⟩ := List.mem_map.mp hpick
    simp at hx

end

/-- Lists that begin with parts of equal length are compared by these first. -/
theorem append_lt_append_iff {a a' b b' : List Nat} (hlength : a.length = a'.length) :
    a ++ b < a' ++ b' ↔ a < a' ∨ a = a' ∧ b < b' := by
  induction a generalizing a' with
  | nil =>
    obtain rfl : a' = [] := List.length_eq_zero_iff.mp hlength.symm
    simp
  | cons x xs ih =>
    obtain ⟨y, ys, rfl⟩ := List.exists_cons_of_length_eq_add_one hlength.symm
    rw [List.cons_append, List.cons_append, List.cons_lt_cons_iff, List.cons_lt_cons_iff,
      ih (Nat.succ.inj hlength), List.cons.injEq]
    tauto

/-! ### Both kinds together -/

section
variable {α : Type} [Scalar α] {rules : Rules α} {circles : List (Circle α)}
  {dots : List (List (DotCandidate α))} {labels : List (List (LabelCandidate α))} {c : Choice}

open Encoding

/-- A choice is feasible exactly if its dots and its labels are, each on their own. -/
theorem Choice.feasible_iff :
    c.Feasible rules circles dots labels ↔
      FeasibleFor (dotsOverlap rules) dots c.dots ∧
        FeasibleFor (labelsConflict rules) (named circles labels) c.labels := by
  have hnamed := map_length_named circles labels
  constructor
  · intro h
    exact ⟨⟨h.dots_fit, h.dots_apart⟩, ⟨hnamed ▸ h.labels_fit, h.labels_apart⟩⟩
  · rintro ⟨hdots, hlabels⟩
    exact ⟨hdots.fits, hnamed ▸ hlabels.fits, hdots.apart, hlabels.apart⟩

/-- So there is a feasible choice exactly if there is one of each. -/
theorem Choice.exists_feasible_iff :
    (∃ c : Choice, c.Feasible rules circles dots labels) ↔
      (∃ choice, FeasibleFor (dotsOverlap rules) dots choice) ∧
        ∃ choice, FeasibleFor (labelsConflict rules) (named circles labels) choice := by
  constructor
  · rintro ⟨c, hc⟩
    obtain ⟨hdots, hlabels⟩ := feasible_iff.mp hc
    exact ⟨⟨_, hdots⟩, ⟨_, hlabels⟩⟩
  · rintro ⟨⟨dotChoice, hdots⟩, ⟨labelChoice, hlabels⟩⟩
    exact ⟨⟨dotChoice, labelChoice⟩, feasible_iff.mpr ⟨hdots, hlabels⟩⟩

/-- The vectors of feasible choices are compared by their dots first, and then by their labels. -/
theorem Choice.vector_lt_iff {c' : Choice} (h : c.Feasible rules circles dots labels)
    (h' : c'.Feasible rules circles dots labels) :
    c.vector < c'.vector ↔ c.dots.reduceOption < c'.dots.reduceOption ∨
      c.dots.reduceOption = c'.dots.reduceOption ∧ c.labels.reduceOption < c'.labels.reduceOption := by
  rw [vector, vector, List.reduceOption_append, List.reduceOption_append]
  exact append_lt_append_iff (length_reduceOption_of_fits h.dots_fit h'.dots_fit)

/-- A choice is the least feasible one when its dots and its labels are. -/
theorem Choice.isLeast_iff :
    c.IsLeast rules circles dots labels ↔
      LeastFor (dotsOverlap rules) dots c.dots ∧
        LeastFor (labelsConflict rules) (named circles labels) c.labels := by
  obtain ⟨dotChoice, labelChoice⟩ := c
  constructor
  · intro h
    obtain ⟨hdots, hlabels⟩ := feasible_iff.mp h.feasible
    refine ⟨⟨hdots, fun other hother hne => ?_⟩, ⟨hlabels, fun other hother hne => ?_⟩⟩
    · -- Other dots with the same labels are feasible, and differ in the dots alone.
      have hfeasible : Choice.Feasible rules circles dots labels ⟨other, labelChoice⟩ :=
        feasible_iff.mpr ⟨hother, hlabels⟩
      have hlt := h.least _ hfeasible fun heq => hne (congrArg Choice.dots heq)
      rcases (vector_lt_iff h.feasible hfeasible).mp hlt with hlt | ⟨-, hlt⟩
      · exact hlt
      · exact absurd hlt (List.lt_irrefl _)
    · have hfeasible : Choice.Feasible rules circles dots labels ⟨dotChoice, other⟩ :=
        feasible_iff.mpr ⟨hdots, hother⟩
      have hlt := h.least _ hfeasible fun heq => hne (congrArg Choice.labels heq)
      rcases (vector_lt_iff h.feasible hfeasible).mp hlt with hlt | ⟨-, hlt⟩
      · exact absurd hlt (List.lt_irrefl _)
      · exact hlt
  · rintro ⟨hdots, hlabels⟩
    have hfeasible : Choice.Feasible rules circles dots labels ⟨dotChoice, labelChoice⟩ :=
      feasible_iff.mpr ⟨hdots.feasible, hlabels.feasible⟩
    refine ⟨hfeasible, ?_⟩
    rintro ⟨otherDots, otherLabels⟩ hother hne
    obtain ⟨hotherDots, hotherLabels⟩ := feasible_iff.mp hother
    rw [vector_lt_iff hfeasible hother]
    by_cases heq : otherDots = dotChoice
    · subst heq
      exact Or.inr ⟨rfl, hlabels.least _ hotherLabels fun heq => hne (congrArg (Choice.mk _) heq)⟩
    · exact Or.inl (hdots.least _ hotherDots heq)

namespace Encoding

variable {e : Encoding}

/-- Deciding the formula finds a model that stands for the choice. -/
def Finds (e : Encoding) (c : Choice) : Prop :=
  ∃ model, e.formula.decide.verdict = .sat model ∧ e.choice model = c

/-- What is found is the least feasible choice. -/
theorem Encodes.finds_iff (h : Encodes rules circles dots labels e) :
    e.Finds c ↔ LeastFor (dotsOverlap rules) dots c.dots ∧
      LeastFor (labelsConflict rules) (named circles labels) c.labels := by
  rw [← Choice.isLeast_iff]
  rcases h.decide_cases with ⟨model, hverdict, -, hleast⟩ | ⟨hverdict, hnone⟩
  · constructor
    · rintro ⟨model', hverdict', rfl⟩
      obtain rfl : model = model' := Verdict.sat.inj (hverdict.symm.trans hverdict')
      exact hleast
    · intro hc
      exact ⟨model, hverdict, hc.unique hleast⟩
  · constructor
    · rintro ⟨model, hverdict', -⟩
      exact absurd (hverdict.symm.trans hverdict') (by simp)
    · intro hc
      exact absurd hc.feasible (hnone c)

/-- There is a model when there is a feasible choice of dots and one of labels. -/
theorem Encodes.exists_isModel_iff (h : Encodes rules circles dots labels e) :
    (∃ model, e.formula.IsModel model) ↔
      (∃ choice, FeasibleFor (dotsOverlap rules) dots choice) ∧
        ∃ choice, FeasibleFor (labelsConflict rules) (named circles labels) choice := by
  rw [← Choice.exists_feasible_iff]
  constructor
  · rintro ⟨model, hmodel⟩
    exact ⟨_, (h.isModel_iff.mp hmodel).2⟩
  · rintro ⟨c, hfeasible⟩
    obtain ⟨model, hmodel, -⟩ := h.bijOn_choice.surjOn hfeasible
    exact ⟨model, hmodel⟩

/-- If there is a model, deciding finds one. -/
theorem Encodes.exists_finds_iff (h : Encodes rules circles dots labels e) :
    (∃ c, e.Finds c) ↔ ∃ model, e.formula.IsModel model := by
  rcases h.decide_cases with ⟨model, hverdict, -, hleast⟩ | ⟨hverdict, hnone⟩
  · constructor
    · intro _
      obtain ⟨model, hmodel, -⟩ := h.bijOn_choice.surjOn hleast.feasible
      exact ⟨model, hmodel⟩
    · intro _
      exact ⟨_, model, hverdict, rfl⟩
  · constructor
    · rintro ⟨_, model, hverdict', -⟩
      exact absurd (hverdict.symm.trans hverdict') (by simp)
    · rintro ⟨model, hmodel⟩
      exact absurd (h.isModel_iff.mp hmodel).2 (hnone _)

/-- A formula with a model finds a choice. -/
theorem exists_finds_of_ok (hok : e.formula.decide.ok = true) : ∃ c, e.Finds c := by
  cases hverdict : e.formula.decide.verdict with
  | sat model => exact ⟨_, model, hverdict, rfl⟩
  | unsat => simp [Result.ok, hverdict] at hok

/-- If deciding finds a choice, decoding gives its layout. -/
theorem Encodes.decode_of_finds (h : Encodes rules circles dots labels e)
    (hlabels : labels.length = circles.length) {organizations : List Organization}
    (horganizations : organizations.length = dots.length) (hfinds : e.Finds c) :
    decode e.formula.decide e organizations circles dots labels
      = .ok (c.layout organizations circles dots labels) :=
  h.decode_decide hlabels horganizations (Choice.isLeast_iff.mpr (h.finds_iff.mp hfinds))

/-- An encoding of dots and labels beside one of the dots and one of the labels. There is a model of the
first exactly if there is one of each of the others. What deciding finds for both is what it finds for
the dots and what it finds for the labels. Decoding puts dots and labels at the same places. -/
structure SplitsInto (circles circles₀ : List (Circle α)) (dots dots₀ : List (List (DotCandidate α)))
    (labels labels₀ : List (List (LabelCandidate α))) (joint dotsOnly labelsOnly : Encoding) :
    Prop where
  exists_isModel_iff : (∃ model, joint.formula.IsModel model) ↔
    (∃ model, dotsOnly.formula.IsModel model) ∧ ∃ model, labelsOnly.formula.IsModel model
  finds_iff : ∀ c, joint.Finds c ↔
    ∃ c₁ c₂, dotsOnly.Finds c₁ ∧ labelsOnly.Finds c₂ ∧ c = ⟨c₁.dots, c₂.labels⟩
  decode_eq : ∀ organizations organizations₀ : List Organization,
    organizations.length = dots.length → organizations₀.length = dots₀.length →
    joint.formula.decide.ok = true →
      ∃ l l₁ l₂,
        decode joint.formula.decide joint organizations circles dots labels = .ok l ∧
        decode dotsOnly.formula.decide dotsOnly organizations circles₀ dots labels₀ = .ok l₁ ∧
        decode labelsOnly.formula.decide labelsOnly organizations₀ circles dots₀ labels = .ok l₂ ∧
        l.organizations = l₁.organizations ∧ l.circles = l₂.circles

/-- The choice that is found for both kinds is made of the halves of the choices found for each. -/
theorem Encodes.finds_split_iff {circles₀ : List (Circle α)} {dots₀ : List (List (DotCandidate α))}
    {labels₀ : List (List (LabelCandidate α))} {joint dotsOnly labelsOnly : Encoding}
    (h : Encodes rules circles dots labels joint) (hd : Encodes rules circles₀ dots labels₀ dotsOnly)
    (hl : Encodes rules circles dots₀ labels labelsOnly)
    (hmodels : (∃ model, joint.formula.IsModel model) ↔
      (∃ model, dotsOnly.formula.IsModel model) ∧ ∃ model, labelsOnly.formula.IsModel model) :
    joint.Finds c ↔ ∃ c₁ c₂, dotsOnly.Finds c₁ ∧ labelsOnly.Finds c₂ ∧ c = ⟨c₁.dots, c₂.labels⟩ := by
  constructor
  · intro hc
    have hboth := hmodels.mp (h.exists_finds_iff.mp ⟨c, hc⟩)
    obtain ⟨c₁, hc₁⟩ := hd.exists_finds_iff.mpr hboth.1
    obtain ⟨c₂, hc₂⟩ := hl.exists_finds_iff.mpr hboth.2
    obtain ⟨hdots, hlabels⟩ := h.finds_iff.mp hc
    -- What is found for the dots is determined by the dots alone, and so for the labels.
    have heq₁ := (hd.finds_iff.mp hc₁).1.unique hdots
    have heq₂ := (hl.finds_iff.mp hc₂).2.unique hlabels
    exact ⟨c₁, c₂, hc₁, hc₂, by rw [← heq₁, ← heq₂]⟩
  · rintro ⟨c₁, c₂, hc₁, hc₂, rfl⟩
    exact h.finds_iff.mpr ⟨(hd.finds_iff.mp hc₁).1, (hl.finds_iff.mp hc₂).2⟩

/-- Dots and labels are chosen independently: encoding both splits into encoding the dots where no label
has a candidate, and the labels where no dot has one. -/
theorem encode_independent (rules : Rules α) {circles circles₀ : List (Circle α)}
    {dots dots₀ : List (List (DotCandidate α))} {labels labels₀ : List (List (LabelCandidate α))}
    (hlabels : labels.length = circles.length) (hlabels₀ : labels₀.length = circles₀.length)
    (hnodots : ∀ candidates ∈ dots₀, candidates = [])
    (hnolabels : ∀ candidates ∈ labels₀, candidates = []) :
    ∃ joint dotsOnly labelsOnly : Encoding,
      encode .empty rules circles dots labels = .ok joint ∧
      encode .empty rules circles₀ dots labels₀ = .ok dotsOnly ∧
      encode .empty rules circles dots₀ labels = .ok labelsOnly ∧
      SplitsInto circles circles₀ dots dots₀ labels labels₀ joint dotsOnly labelsOnly := by
  obtain ⟨joint, hjoint, h⟩ := exists_encodes rules dots hlabels
  obtain ⟨dotsOnly, hdotsOnly, hd⟩ := exists_encodes rules dots hlabels₀
  obtain ⟨labelsOnly, hlabelsOnly, hl⟩ := exists_encodes rules dots₀ hlabels
  have hmodels : (∃ model, joint.formula.IsModel model) ↔
      (∃ model, dotsOnly.formula.IsModel model) ∧ ∃ model, labelsOnly.formula.IsModel model := by
    -- The half without candidates always has a feasible choice.
    have hdots₀ : ∃ choice, FeasibleFor (dotsOverlap rules) dots₀ choice :=
      ⟨_, feasibleFor_of_forall_eq_nil hnodots⟩
    have hnamed₀ : ∃ choice, FeasibleFor (labelsConflict rules) (named circles₀ labels₀) choice := by
      refine ⟨_, feasibleFor_of_forall_eq_nil fun candidates hmem => ?_⟩
      obtain ⟨⟨xs, i⟩, hxs, rfl⟩ := List.mem_map.mp hmem
      simp [hnolabels xs (List.fst_mem_of_mem_zipIdx hxs)]
    rw [h.exists_isModel_iff, hd.exists_isModel_iff, hl.exists_isModel_iff]
    tauto
  have hfinds := fun c => h.finds_split_iff (c := c) hd hl hmodels
  refine ⟨joint, dotsOnly, labelsOnly, hjoint, hdotsOnly, hlabelsOnly, hmodels, hfinds, ?_⟩
  intro organizations organizations₀ horganizations horganizations₀ hok
  obtain ⟨c, hc⟩ := exists_finds_of_ok hok
  obtain ⟨c₁, c₂, hc₁, hc₂, rfl⟩ := (hfinds c).mp hc
  exact ⟨_, _, _, h.decode_of_finds hlabels horganizations hc,
    hd.decode_of_finds hlabels₀ horganizations hc₁, hl.decode_of_finds hlabels horganizations₀ hc₂,
    rfl, rfl⟩

end Encoding

end

/-- Two organizations close to each other and a circle with two places for its label. Beside them, the
organizations with a circle that has no place for its label, and the label with an organization that has
nowhere to go. -/
theorem encode_independent_two_dots :
    let circles : List (Circle Float) := [⟨0, "A", "red", 0, 5000, 100⟩]
    let dots : List (List (DotCandidate Float)) := [[⟨0, 0, 1⟩, ⟨1000, 0, 1⟩], [⟨10, 0, 1⟩, ⟨0, 10, 1⟩]]
    let labels : List (List (LabelCandidate Float)) := [[⟨100, 5000, 0⟩, ⟨-100, 5000, 180⟩]]
    let dots₀ : List (List (DotCandidate Float)) := [[]]
    let labels₀ : List (List (LabelCandidate Float)) := [[]]
    labels.length = circles.length ∧ labels₀.length = circles.length ∧
      (∀ candidates ∈ dots₀, candidates = []) ∧ (∀ candidates ∈ labels₀, candidates = []) ∧
      ∃ joint dotsOnly labelsOnly : Encoding,
        encode .empty Rules.standard circles dots labels = .ok joint ∧
        encode .empty Rules.standard circles dots labels₀ = .ok dotsOnly ∧
        encode .empty Rules.standard circles dots₀ labels = .ok labelsOnly ∧
        Encoding.SplitsInto circles circles dots dots₀ labels labels₀ joint dotsOnly labelsOnly := by
  have hnone : ∀ {β : Type} (xs : List β), xs ∈ ([[]] : List (List β)) → xs = [] := by simp
  exact ⟨rfl, rfl, hnone, hnone, Encoding.encode_independent _ rfl rfl hnone hnone⟩

end VennDiagram
