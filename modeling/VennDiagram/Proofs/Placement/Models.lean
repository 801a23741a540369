import VennDiagram.Proofs.Placement.Choice

/-!
# `VennDiagram.Proofs.Placement.Models`: the models of an encoding are the placements without overlap

An encoding that starts from the empty formula has one variable for each candidate. The clauses hold
under an assignment exactly if every entity takes one of its candidates and no two organizations and no
two labels take candidates that overlap (`Encodes.satisfies_iff`). Read as choices, the models are the
feasible choices, each once, and decoding a model places every entity at the candidate that its choice
names (`encode_represents`).

The encoding asks of two entities whether the earlier one overlaps the later one, in this order, so that
is what `Apart` says. Nothing is assumed of the arithmetic.
-/

set_option autoImplicit false

namespace VennDiagram

/-- A number for each organization and for each label, as far as they have candidates. -/
structure Choice where
  dots : List (Option Nat)
  labels : List (Option Nat)
deriving DecidableEq, Repr

/-- What a model of an encoding chooses. -/
def Encoding.choice (e : Encoding) (model : Array Bool) : Choice :=
  { dots := e.orgVars.map (firstTrue? (Assignment.ofList model.toList))
    labels := e.labelVars.map (firstTrue? (Assignment.ofList model.toList)) }

/-- A list of values for all variables under which every clause is true. -/
def Formula.IsModel (f : Formula) (model : Array Bool) : Prop :=
  model.size = f.numVars ∧ ∀ c ∈ f.clauses, c.eval (Assignment.ofList model.toList) = some true

variable {α : Type}

/-- The layout of a choice: every entity is at the candidate that is chosen for it. -/
def Choice.layout (c : Choice) (organizations : List Organization) (circles : List (Circle α))
    (dots : List (List (DotCandidate α))) (labels : List (List (LabelCandidate α))) : Layout α :=
  { circles := List.zipWith PlacedCircle.mk circles (picks labels c.labels)
    organizations := List.zipWith PlacedOrganization.mk organizations
      ((picks dots c.dots).map (Option.map DotCandidate.position))
    method := .sat
    statistics := none }

section
variable [Scalar α]

open Encoding in
/-- The choice names a candidate for every entity that has one, and none of the chosen candidates
overlap. -/
structure Choice.Feasible (rules : Rules α) (circles : List (Circle α))
    (dots : List (List (DotCandidate α))) (labels : List (List (LabelCandidate α))) (c : Choice) :
    Prop where
  dots_fit : List.Forall₂ Fits (dots.map List.length) c.dots
  labels_fit : List.Forall₂ Fits (labels.map List.length) c.labels
  dots_apart : Apart (dotsOverlap rules) ((picks dots c.dots).map Option.toList)
  labels_apart : Apart (labelsConflict rules) ((picks (named circles labels) c.labels).map Option.toList)

end

namespace Encoding

/-- The candidates that each entity takes under an assignment. -/
def takenOf {β : Type} (a : Assignment) (groups : List (List Nat)) (candidates : List (List β)) :
    List (List β) :=
  List.zipWith (fun group candidates => taken a (group.zip candidates)) groups candidates

/-- What each entity takes, told of its candidates with their selectors. -/
theorem takenOf_eq_map {β : Type} (a : Assignment) (groups : List (List Nat))
    (candidates : List (List β)) :
    (List.zipWith List.zip groups candidates).map (taken a) = takenOf a groups candidates :=
  List.map_zipWith

/-- What is taken is what is chosen. -/
theorem takenOf_eq_picks {β : Type} {a : Assignment} {groups : List (List Nat)}
    {candidates : List (List β)} (hone : ∀ group ∈ groups, AtMostOne a group)
    (hlength : groups.map List.length = candidates.map List.length) :
    takenOf a groups candidates
      = (picks candidates (groups.map (firstTrue? a))).map Option.toList := by
  induction groups generalizing candidates with
  | nil =>
    obtain rfl : candidates = [] := by simpa using hlength.symm
    rfl
  | cons group rest ih =>
    cases candidates with
    | nil => simp at hlength
    | cons xs xss =>
      obtain ⟨hfirst, hrest⟩ := List.cons.inj hlength
      obtain ⟨hone, hones⟩ := List.forall_mem_cons.mp hone
      show taken a (group.zip xs) :: takenOf a rest xss = _
      rw [taken_zip_eq hone hfirst, ih hones hrest]
      rfl

/-- Lists whose elements have the same lengths have themselves the same length. -/
theorem length_eq_of_map_length {β γ : Type} {xs : List (List β)} {ys : List (List γ)}
    (h : xs.map List.length = ys.map List.length) : xs.length = ys.length := by
  simpa using congrArg List.length h

/-- Decoding entity by entity picks what the model chooses. There may be groups for more entities. -/
theorem placeAll_eq {β γ δ : Type} {model : Array Bool} {groups : List (List Nat)}
    {candidates : List (List β)} (place : γ → Option β → δ) {entities : List γ}
    (hentities : entities.length ≤ groups.length)
    (hlengths : groups.map List.length = candidates.map List.length)
    (hvalues : ∀ group ∈ groups, ∀ v ∈ group, (Assignment.ofList model.toList v).isSome = true) :
    Decoding.placeAll model groups candidates place entities
      = .ok (List.zipWith place entities
          (picks candidates (groups.map (firstTrue? (Assignment.ofList model.toList))))) := by
  have hlength := length_eq_of_map_length hlengths
  refine mapM_eq_ok_iff.mpr (List.forall₂_iff_get.mpr ⟨by simp [picks]; omega, fun i hi _ => ?_⟩)
  have hentity : i < entities.length := List.length_zipIdx ▸ hi
  have hgroup : i < groups.length := by omega
  have hown : i < candidates.length := by omega
  have hsize : groups[i].length = candidates[i].length := by
    have hsizes := congrArg (·[i]?) hlengths
    simpa [hgroup, hown] using hsizes
  simp [chosen_eq hgroup hown hsize (hvalues _ (List.getElem_mem hgroup)), picks, Except.map]

/-- Nothing is picked for exactly the entities without candidates. -/
theorem map_isNone_picks {β : Type} {candidates : List (List β)} {choice : List (Option Nat)}
    (hfit : List.Forall₂ Fits (candidates.map List.length) choice) :
    (picks candidates choice).map Option.isNone = candidates.map List.isEmpty := by
  induction candidates generalizing choice with
  | nil => rfl
  | cons xs xss ih =>
    cases hfit with
    | @cons _ k _ ks hk hks =>
      show (k.bind (xs[·]?)).isNone :: (picks xss ks).map Option.isNone = _
      rw [ih hks, List.map_cons]
      congr 1
      cases k with
      | none =>
        obtain rfl : xs = [] := List.length_eq_zero_iff.mp hk
        rfl
      | some k =>
        have hlt : k < xs.length := hk
        have hne : xs ≠ [] := List.ne_nil_of_length_pos (Nat.zero_lt_of_lt hlt)
        simp [hlt, hne]

/-- A choice that fits picks something or nothing for each entity. -/
theorem length_picks {β : Type} {candidates : List (List β)} {choice : List (Option Nat)}
    (hfit : List.Forall₂ Fits (candidates.map List.length) choice) :
    (picks candidates choice).length = candidates.length := by
  have := congrArg List.length (map_isNone_picks hfit)
  rwa [List.length_map, List.length_map] at this

/-- Texts do not change how many candidates there are. -/
theorem map_length_named (circles : List (Circle α)) (labels : List (List (LabelCandidate α))) :
    (named circles labels).map List.length = labels.map List.length := by
  refine List.ext_getElem (by simp [named]) fun i hi hi' => ?_
  simp [named]

/-! ### The shape of an encoding -/

section
variable [Scalar α] {rules : Rules α} {circles : List (Circle α)}
  {dots : List (List (DotCandidate α))} {labels : List (List (LabelCandidate α))}

/-- The parts of an encoding that starts from the empty formula. -/
structure Encodes (rules : Rules α) (circles : List (Circle α)) (dots : List (List (DotCandidate α)))
    (labels : List (List (LabelCandidate α))) (e : Encoding) : Prop where
  org_lengths : e.orgVars.map List.length = dots.map List.length
  label_lengths : e.labelVars.map List.length = labels.map List.length
  vars_eq : (e.orgVars ++ e.labelVars).flatten = List.range' 1 e.formula.numVars
  clauses_eq : e.formula.clauses
    = (e.orgVars ++ e.labelVars).flatMap exactlyOneOf
      ++ conflicts (dotsOverlap rules) (List.zipWith List.zip e.orgVars dots)
      ++ conflicts (labelsConflict rules) (List.zipWith List.zip e.labelVars (named circles labels))

/-- With a list of labels for each circle there is always an encoding. -/
theorem exists_encodes (rules : Rules α) (dots : List (List (DotCandidate α)))
    (hlabels : labels.length = circles.length) :
    ∃ e, encode .empty rules circles dots labels = .ok e ∧ Encodes rules circles dots labels e := by
  rw [encode, lacksCircle_eq_false hlabels, if_neg Bool.false_ne_true]
  refine ⟨_, rfl, map_length_groupsFrom _ _, map_length_groupsFrom _ _, ?_, rfl⟩
  show (groupsFrom (0 + 1) (dots.map List.length)
      ++ groupsFrom (0 + dots.flatten.length + 1) (labels.map List.length)).flatten
    = List.range' (0 + 1) (0 + dots.flatten.length + labels.flatten.length)
  rw [flatten_groupsFrom_append, Nat.zero_add dots.flatten.length]

variable {e : Encoding} {a : Assignment}

/-- Values for all variables are values for all selectors. -/
theorem Encodes.isSome (h : Encodes rules circles dots labels e) (ha : a.Covers e.formula.numVars)
    {group : List Nat} (hgroup : group ∈ e.orgVars ++ e.labelVars) {v : Nat} (hv : v ∈ group) :
    (a v).isSome = true := by
  have hmem : v ∈ List.range' 1 e.formula.numVars :=
    h.vars_eq ▸ List.mem_flatten.mpr ⟨group, hgroup, hv⟩
  obtain ⟨hpos, hlt⟩ := List.mem_range'_1.mp hmem
  exact (ha v).mpr ⟨hpos, by omega⟩

/-- The selectors of an entity are different. -/
theorem Encodes.nodup (h : Encodes rules circles dots labels e) {group : List Nat}
    (hgroup : group ∈ e.orgVars ++ e.labelVars) : group.Nodup := by
  have hall : (e.orgVars ++ e.labelVars).flatten.Nodup := h.vars_eq ▸ List.nodup_range'
  exact (List.nodup_flatten.mp hall).1 group hgroup

/-- The variables of entities are those of their groups. -/
theorem fst_mem_of_mem_zipWith {β : Type} {groups : List (List Nat)} {candidates : List (List β)}
    {entity : List (Nat × β)} (hentity : entity ∈ List.zipWith List.zip groups candidates)
    {p : Nat × β} (hp : p ∈ entity) : ∃ group ∈ groups, p.1 ∈ group := by
  induction groups generalizing candidates with
  | nil => simp at hentity
  | cons group rest ih =>
    cases candidates with
    | nil => simp at hentity
    | cons xs xss =>
      rcases List.mem_cons.mp hentity with rfl | hmem
      · exact ⟨group, List.mem_cons_self, (List.of_mem_zip (a := p.1) (b := p.2) hp).1⟩
      · obtain ⟨g, hg, hp⟩ := ih hmem
        exact ⟨g, List.mem_cons_of_mem _ hg, hp⟩

/-- The conflict clauses of groups with their candidates. -/
theorem conflicts_zip_true_iff {β : Type} {overlap : β → β → Bool} {groups : List (List Nat)}
    {candidates : List (List β)} (hvalues : ∀ group ∈ groups, ∀ v ∈ group, (a v).isSome = true) :
    (∀ c ∈ conflicts overlap (List.zipWith List.zip groups candidates), c.eval a = some true) ↔
      Apart overlap (takenOf a groups candidates) := by
  rw [← takenOf_eq_map]
  refine conflicts_true_iff fun entity hentity p hp => ?_
  obtain ⟨group, hgroup, hv⟩ := fst_mem_of_mem_zipWith hentity hp
  exact hvalues group hgroup _ hv

/-- The clauses of an encoding say that every entity takes one of its candidates, and that no two
candidates that are taken overlap. -/
theorem Encodes.satisfies_iff (h : Encodes rules circles dots labels e)
    (ha : a.Covers e.formula.numVars) :
    (∀ c ∈ e.formula.clauses, c.eval a = some true) ↔
      (∀ group ∈ e.orgVars ++ e.labelVars, ExactlyOne a group) ∧
        Apart (dotsOverlap rules) (takenOf a e.orgVars dots) ∧
        Apart (labelsConflict rules) (takenOf a e.labelVars (named circles labels)) := by
  have hchoices : (∀ c ∈ (e.orgVars ++ e.labelVars).flatMap exactlyOneOf, c.eval a = some true) ↔
      ∀ group ∈ e.orgVars ++ e.labelVars, ExactlyOne a group := by
    rw [List.forall_mem_flatMap]
    exact forall₂_congr fun group hgroup =>
      exactlyOneOf_true_iff (h.nodup hgroup) fun v hv => h.isSome ha hgroup hv
  rw [h.clauses_eq, List.forall_mem_append, List.forall_mem_append, hchoices,
    conflicts_zip_true_iff fun group hgroup v => h.isSome ha (List.mem_append_left _ hgroup),
    conflicts_zip_true_iff fun group hgroup v => h.isSome ha (List.mem_append_right _ hgroup),
    and_assoc]

/-! ### Models and choices -/

variable {model : Array Bool}

/-- Models are the lists of values that select one candidate of each entity, and whose choice is
feasible. -/
theorem Encodes.isModel_iff (h : Encodes rules circles dots labels e) :
    e.formula.IsModel model ↔
      (model.size = e.formula.numVars ∧
        ∀ group ∈ e.orgVars ++ e.labelVars, ExactlyOne (Assignment.ofList model.toList) group) ∧
      (e.choice model).Feasible rules circles dots labels := by
  rw [Formula.IsModel, and_assoc]
  refine and_congr_right fun hsize => ?_
  have hcovers : (Assignment.ofList model.toList).Covers e.formula.numVars := by
    rw [← hsize, ← Array.length_toList]
    exact Assignment.covers_ofList _
  rw [h.satisfies_iff hcovers]
  refine and_congr_right fun hone => ?_
  -- With exactly one true variable in each group, what is taken of it is its first true one.
  have hone' : ∀ group ∈ e.orgVars ++ e.labelVars,
      AtMostOne (Assignment.ofList model.toList) group := fun group hgroup =>
    (hone group hgroup).atMostOne (h.nodup hgroup)
  obtain ⟨honeOrg, honeLabel⟩ := List.forall_mem_append.mp hone'
  obtain ⟨hexactOrg, hexactLabel⟩ := List.forall_mem_append.mp hone
  have hdots := fits_map_firstTrue? hexactOrg
  have hlabels := fits_map_firstTrue? hexactLabel
  rw [h.org_lengths] at hdots
  rw [h.label_lengths] at hlabels
  rw [takenOf_eq_picks honeOrg h.org_lengths,
    takenOf_eq_picks honeLabel (h.label_lengths.trans (map_length_named _ _).symm)]
  constructor
  · rintro ⟨hdotsApart, hlabelsApart⟩
    exact ⟨hdots, hlabels, hdotsApart, hlabelsApart⟩
  · intro hfeasible
    exact ⟨hfeasible.dots_apart, hfeasible.labels_apart⟩

/-- Every feasible choice is the choice of exactly one model. -/
theorem Encodes.bijOn_choice (h : Encodes rules circles dots labels e) :
    Set.BijOn e.choice {model | e.formula.IsModel model}
      {c | c.Feasible rules circles dots labels} := by
  refine ⟨fun model hmodel => (h.isModel_iff.mp hmodel).2, ?_, ?_⟩
  · intro model hmodel other hother heq
    obtain ⟨⟨hsize, hone⟩, -⟩ := h.isModel_iff.mp hmodel
    obtain ⟨⟨hsize', hone'⟩, -⟩ := h.isModel_iff.mp hother
    obtain ⟨hdots, hlabels⟩ := Choice.mk.inj heq
    refine model_eq_of_map_firstTrue? h.vars_eq hsize hsize' hone hone' ?_
    rw [List.map_append, List.map_append, hdots, hlabels]
  · rintro ⟨dotChoice, labelChoice⟩ hfeasible
    -- All groups together are read as one choice, which falls into its two parts by length.
    have hfit : List.Forall₂ Fits ((e.orgVars ++ e.labelVars).map List.length)
        (dotChoice ++ labelChoice) := by
      rw [List.map_append, h.org_lengths, h.label_lengths]
      exact List.rel_append hfeasible.dots_fit hfeasible.labels_fit
    obtain ⟨model, ⟨hsize, hone⟩, hread⟩ := (bijOn_firstTrue? h.vars_eq).surjOn hfit
    have hlength : (e.orgVars.map (firstTrue? (Assignment.ofList model.toList))).length
        = dotChoice.length := by
      rw [← hfeasible.dots_fit.length_eq, ← h.org_lengths, List.length_map, List.length_map]
    change (e.orgVars ++ e.labelVars).map (firstTrue? (Assignment.ofList model.toList))
      = dotChoice ++ labelChoice at hread
    rw [List.map_append] at hread
    obtain ⟨hdots, hlabels⟩ := List.append_inj hread hlength
    have hchoice : e.choice model = ⟨dotChoice, labelChoice⟩ := by
      rw [choice, hdots, hlabels]
    exact ⟨model, h.isModel_iff.mpr ⟨⟨hsize, hone⟩, hchoice ▸ hfeasible⟩, hchoice⟩

/-- A decoded model is the layout of its choice. It has a value for every selector. -/
theorem Encodes.decode_eq (h : Encodes rules circles dots labels e)
    (hlabels : labels.length = circles.length) {organizations : List Organization}
    (horganizations : organizations.length ≤ dots.length) {model : Array Bool}
    (hsize : model.size = e.formula.numVars) (effort : Effort) :
    decode ⟨.sat model, effort⟩ e organizations circles dots labels
      = .ok ((e.choice model).layout organizations circles dots labels) := by
  have horg : organizations.length ≤ e.orgVars.length := by
    rwa [length_eq_of_map_length h.org_lengths]
  have hlabel : circles.length ≤ e.labelVars.length := by
    rw [length_eq_of_map_length h.label_lengths, hlabels]
  have hcovers : (Assignment.ofList model.toList).Covers e.formula.numVars := by
    rw [← hsize, ← Array.length_toList]
    exact Assignment.covers_ofList _
  have hvalues : ∀ group ∈ e.orgVars ++ e.labelVars, ∀ v ∈ group,
      (Assignment.ofList model.toList v).isSome = true := fun _ hgroup _ hv => h.isSome hcovers hgroup hv
  obtain ⟨hdotValues, hlabelValues⟩ := List.forall_mem_append.mp hvalues
  rw [decode]
  dsimp only [Result.model?]
  rw [placeAll_eq _ horg h.org_lengths hdotValues, bind_ok,
    placeAll_eq _ hlabel h.label_lengths hlabelValues, bind_ok, Choice.layout, List.zipWith_map_right]
  rfl

/-- A list read beside another one of the same length, which does not matter. -/
theorem zipWith_right {β γ δ : Type} (f : γ → δ) {xs : List β} {ys : List γ}
    (hlength : xs.length = ys.length) : List.zipWith (fun _ y => f y) xs ys = ys.map f := by
  calc List.zipWith (fun _ y => f y) xs ys
      = (xs.zip ys).map (f ∘ Prod.snd) := by rw [List.zip, List.map_zipWith]; rfl
    _ = ((xs.zip ys).map Prod.snd).map f := List.map_map.symm
    _ = ys.map f := by rw [List.map_snd_zip hlength.ge]

/-- The entities without a place in the layout of a choice that fits are those without candidates. -/
theorem isNone_layout {c : Choice} (hfeasible : c.Feasible rules circles dots labels)
    (hlabels : labels.length = circles.length) {organizations : List Organization}
    (horganizations : organizations.length = dots.length) :
    (c.layout organizations circles dots labels).organizations.map (fun o => o.position.isNone)
        = dots.map List.isEmpty ∧
      (c.layout organizations circles dots labels).circles.map (fun p => p.label.isNone)
        = labels.map List.isEmpty := by
  have hdots := length_picks hfeasible.dots_fit
  have hlabel := length_picks hfeasible.labels_fit
  rw [← map_isNone_picks hfeasible.dots_fit, ← map_isNone_picks hfeasible.labels_fit, Choice.layout]
  constructor
  · rw [List.map_zipWith, zipWith_right (fun position => Option.isNone position) (by simp [*])]
    simp
  · rw [List.map_zipWith, zipWith_right (fun label => Option.isNone label) (by omega)]

/-! ### Placements -/

/-- An encoding stands for the placements without overlap.

Its groups of selectors match the lists of candidates and are together the variables of its formula.
The clauses say of a total assignment that it takes one candidate of each entity that has any, and that
no two organizations and no two labels take candidates that overlap. Reading choices off models is a
bijection onto the feasible choices, and decoding a model places every entity at its chosen candidate
and leaves out exactly those without candidates. -/
structure Represents (rules : Rules α) (circles : List (Circle α)) (dots : List (List (DotCandidate α)))
    (labels : List (List (LabelCandidate α))) (e : Encoding) : Prop where
  org_lengths : e.orgVars.map List.length = dots.map List.length
  label_lengths : e.labelVars.map List.length = labels.map List.length
  vars_eq : (e.orgVars ++ e.labelVars).flatten = List.range' 1 e.formula.numVars
  satisfies_iff : ∀ a : Assignment, a.Covers e.formula.numVars →
    ((∀ c ∈ e.formula.clauses, c.eval a = some true) ↔
      (∀ group ∈ e.orgVars ++ e.labelVars, ExactlyOne a group) ∧
        Apart (dotsOverlap rules) (takenOf a e.orgVars dots) ∧
        Apart (labelsConflict rules) (takenOf a e.labelVars (named circles labels)))
  bijOn_choice : Set.BijOn e.choice {model | e.formula.IsModel model}
    {c | c.Feasible rules circles dots labels}
  decode_eq : ∀ (organizations : List Organization) (model : Array Bool) (effort : Effort),
    organizations.length = dots.length → e.formula.IsModel model →
      ∃ l, decode ⟨.sat model, effort⟩ e organizations circles dots labels = .ok l ∧
        l = (e.choice model).layout organizations circles dots labels ∧
        l.organizations.map (fun o => o.position.isNone) = dots.map List.isEmpty ∧
        l.circles.map (fun p => p.label.isNone) = labels.map List.isEmpty

/-- With a list of labels for each circle, encoding from the empty formula succeeds, and what it gives
stands for the placements without overlap. -/
theorem encode_represents (rules : Rules α) (circles : List (Circle α))
    (dots : List (List (DotCandidate α))) (labels : List (List (LabelCandidate α)))
    (hlabels : labels.length = circles.length) :
    ∃ e, encode .empty rules circles dots labels = .ok e ∧ e.Represents rules circles dots labels := by
  obtain ⟨e, hencode, h⟩ := exists_encodes rules dots hlabels
  refine ⟨e, hencode, h.org_lengths, h.label_lengths, h.vars_eq, fun a ha => h.satisfies_iff ha,
    h.bijOn_choice, fun organizations model effort horganizations hmodel => ?_⟩
  have hfeasible := (h.isModel_iff.mp hmodel).2
  obtain ⟨hdots, hcircles⟩ := isNone_layout hfeasible hlabels horganizations
  exact ⟨_, h.decode_eq hlabels horganizations.le hmodel.1 effort, rfl, hdots, hcircles⟩

end

/-- Two organizations of which one has nowhere to go, and a circle with two places for its label. -/
theorem encode_represents_circle :
    let circle : Circle Float := ⟨0, "A", "red", 200, 200, 100⟩
    let dots : List (List (DotCandidate Float)) := [[⟨180, 200, 80⟩, ⟨220, 200, 80⟩], []]
    let labels : List (List (LabelCandidate Float)) := [[⟨320, 200, 0⟩, ⟨80, 200, 180⟩]]
    labels.length = [circle].length ∧
      ∃ e, encode .empty Rules.standard [circle] dots labels = .ok e ∧
        e.Represents Rules.standard [circle] dots labels :=
  ⟨rfl, encode_represents _ _ _ _ rfl⟩

end Encoding
end VennDiagram
