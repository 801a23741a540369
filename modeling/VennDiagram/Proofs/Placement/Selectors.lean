import Mathlib.Data.List.Pairwise
import Mathlib.Logic.ExistsUnique
import VennDiagram.Placement.Encoding
import VennDiagram.Proofs.Formula.Truth

/-!
# `VennDiagram.Proofs.Placement.Selectors`: what the clauses of an encoding say

The clauses of an encoding come in families, and each family says one thing about the selectors that an
assignment makes true:

* `exactlyOneOf_true_iff`: one selector of a group is true and no other, unless the group is empty.
* `conflicts_true_iff`: no candidate taken by one entity overlaps a candidate taken by a later one.
  `taken` lists the candidates of an entity whose selectors are true.

The selectors themselves are consecutive variables in groups, `flatten_groupsFrom`; so all of them are
different, and together they are all the variables of an encoding that starts from nothing.
-/

set_option autoImplicit false

namespace VennDiagram

/-- All pairs of a list are related when each element is related to every later one. -/
theorem forall_mem_pairs {β : Type} {R : β → β → Prop} {xs : List β} :
    (∀ p ∈ pairs xs, R p.1 p.2) ↔ xs.Pairwise R := by
  induction xs with
  | nil => simp [pairs]
  | cons x rest ih =>
    rw [pairs, List.pairwise_cons, ← ih]
    constructor
    · intro h
      exact ⟨fun y hy => h (x, y) (List.mem_append_left _ (List.mem_map_of_mem hy)),
        fun p hp => h p (List.mem_append_right _ hp)⟩
    · rintro ⟨hfirst, hrest⟩ p hp
      rcases List.mem_append.mp hp with hmem | hmem
      · obtain ⟨y, hy, rfl⟩ := List.mem_map.mp hmem
        exact hfirst y hy
      · exact hrest p hmem

/-- A pair is one of elements. -/
theorem mem_of_mem_pairs {β : Type} {xs : List β} {p : β × β} (hp : p ∈ pairs xs) :
    p.1 ∈ xs ∧ p.2 ∈ xs := by
  have hall : xs.Pairwise fun x y => x ∈ xs ∧ y ∈ xs :=
    List.pairwise_of_forall_mem_list fun _ hx _ hy => ⟨hx, hy⟩
  exact forall_mem_pairs.mpr hall p hp

namespace Encoding

/-! ### Groups of variables -/

/-- The groups have the sizes that were asked for. -/
theorem map_length_groupsFrom (next : Nat) (sizes : List Nat) :
    (groupsFrom next sizes).map List.length = sizes := by
  induction sizes generalizing next with
  | nil => rfl
  | cons size rest ih => rw [groupsFrom, List.map_cons, ih, List.length_range']

/-- The variables of consecutive groups are consecutive, one for each candidate. -/
theorem flatten_groupsFrom {β : Type} (next : Nat) (candidates : List (List β)) :
    (groupsFrom next (candidates.map List.length)).flatten
      = List.range' next candidates.flatten.length := by
  induction candidates generalizing next with
  | nil => rfl
  | cons xs rest ih =>
    rw [List.map_cons, groupsFrom, List.flatten_cons, ih, List.flatten_cons, List.length_append,
      List.range'_append_1]

/-- The groups of two kinds of entity, one kind after the other. -/
theorem flatten_groupsFrom_append {β γ : Type} (n : Nat) (first : List (List β))
    (second : List (List γ)) :
    (groupsFrom (n + 1) (first.map List.length)
        ++ groupsFrom (n + first.flatten.length + 1) (second.map List.length)).flatten
      = List.range' (n + 1) (first.flatten.length + second.flatten.length) := by
  rw [List.flatten_append, flatten_groupsFrom, flatten_groupsFrom, Nat.add_right_comm,
    List.range'_append_1]

/-- With a list of labels for each circle, no label lacks the text of a circle. -/
theorem lacksCircle_eq_false {α : Type} {circles : List (Circle α)}
    {labels : List (List (LabelCandidate α))} (hlabels : labels.length = circles.length) :
    lacksCircle circles labels = false := by
  simp [lacksCircle, ← hlabels]

/-! ### Clauses -/

section
variable {a : Assignment} {group : List Nat}

/-- The clause of a group is true exactly if one of its variables is. -/
theorem someOf_true_iff : (someOf group).eval a = some true ↔ ∃ v ∈ group, a v = some true := by
  simp [Clause.eval_eq_some_true_iff, someOf]

/-- The clause of two variables is true exactly if they are not both true. -/
theorem notBoth_true_iff {v w : Nat} (hv : (a v).isSome = true) (hw : (a w).isSome = true) :
    (notBoth v w).eval a = some true ↔ ¬ (a v = some true ∧ a w = some true) := by
  obtain ⟨value, hvalue⟩ := Option.isSome_iff_exists.mp hv
  obtain ⟨value', hvalue'⟩ := Option.isSome_iff_exists.mp hw
  rw [Clause.eval_eq_some_true_iff]
  cases value <;> cases value' <;> simp [notBoth, hvalue, hvalue']

/-- At most one of the variables is true, told by pairs. -/
def AtMostOne (a : Assignment) (group : List Nat) : Prop :=
  group.Pairwise fun v w => ¬ (a v = some true ∧ a w = some true)

/-- Among different variables, pairs tell that there is at most one. -/
theorem atMostOne_iff (hgroup : group.Nodup) :
    AtMostOne a group ↔
      ∀ v ∈ group, a v = some true → ∀ w ∈ group, a w = some true → w = v := by
  constructor
  · intro hpairs v hv hvtrue w hw hwtrue
    by_contra hne
    -- `AtMostOne` speaks of an earlier and a later variable, but it does not matter which is which.
    have hsymm : Std.Symm fun v w => ¬ (a v = some true ∧ a w = some true) :=
      ⟨fun _ _ h h' => h h'.symm⟩
    exact hpairs.forall hw hv hne ⟨hwtrue, hvtrue⟩
  · intro hone
    refine hgroup.imp_of_mem fun {v w} hv hw hne hboth => ?_
    exact hne (hone w hw hboth.2 v hv hboth.1)

/-- Exactly one of the variables is true, if there are any. -/
def ExactlyOne (a : Assignment) (group : List Nat) : Prop :=
  group ≠ [] → ∃! v, v ∈ group ∧ a v = some true

/-- If exactly one variable is true, no two are. -/
theorem ExactlyOne.atMostOne (hgroup : group.Nodup) (h : ExactlyOne a group) :
    AtMostOne a group := by
  refine (atMostOne_iff hgroup).mpr fun v hv hvtrue w hw hwtrue => ?_
  exact (h (List.ne_nil_of_mem hv)).unique ⟨hw, hwtrue⟩ ⟨hv, hvtrue⟩

/-- The clauses of a group say that exactly one of its variables is true, if there are any. -/
theorem exactlyOneOf_true_iff (hgroup : group.Nodup)
    (hvalues : ∀ v ∈ group, (a v).isSome = true) :
    (∀ c ∈ exactlyOneOf group, c.eval a = some true) ↔ ExactlyOne a group := by
  cases group with
  | nil => simp [exactlyOneOf, ExactlyOne]
  | cons first rest =>
    -- The clauses for the pairs say that at most one variable is true, the first clause that there is
    -- one.
    have hpairs : (∀ p ∈ pairs (first :: rest), (notBoth p.1 p.2).eval a = some true) ↔
        AtMostOne a (first :: rest) := by
      rw [AtMostOne, ← forall_mem_pairs]
      refine forall₂_congr fun p hp => ?_
      obtain ⟨hv, hw⟩ := mem_of_mem_pairs hp
      exact notBoth_true_iff (hvalues _ hv) (hvalues _ hw)
    rw [exactlyOneOf, List.isEmpty_cons, if_neg Bool.false_ne_true, List.forall_mem_cons,
      List.forall_mem_map, hpairs, someOf_true_iff, atMostOne_iff hgroup]
    constructor
    · rintro ⟨⟨v, hv, htrue⟩, hone⟩ -
      exact ⟨v, ⟨hv, htrue⟩, fun w hw => hone v hv htrue w hw.1 hw.2⟩
    · intro h
      obtain ⟨v, ⟨hv, htrue⟩, honly⟩ := h (List.cons_ne_nil _ _)
      refine ⟨⟨v, hv, htrue⟩, fun u hu hutrue w hw hwtrue => ?_⟩
      exact (honly w ⟨hw, hwtrue⟩).trans (honly u ⟨hu, hutrue⟩).symm

end

/-! ### Conflicts -/

section
variable {β : Type} {a : Assignment} {overlap : β → β → Bool}

/-- The candidates of an entity whose selectors are true. -/
def taken (a : Assignment) (entity : List (Nat × β)) : List β :=
  (entity.filter fun (v, _) => a v = some true).map Prod.snd

/-- No candidate of one entity overlaps a candidate of a later one. -/
def Apart (overlap : β → β → Bool) (entities : List (List β)) : Prop :=
  entities.Pairwise fun first second => ∀ x ∈ first, ∀ y ∈ second, overlap x y = false

/-- A candidate is taken exactly if a selector of it is true. -/
theorem mem_taken {entity : List (Nat × β)} {x : β} :
    x ∈ taken a entity ↔ ∃ v, (v, x) ∈ entity ∧ a v = some true := by
  simp [taken]

/-- There is a conflict clause for each two candidates of two entities that overlap. -/
theorem mem_conflicts {entities : List (List (Nat × β))} {c : Clause} :
    c ∈ conflicts overlap entities ↔
      ∃ p ∈ pairs entities, ∃ q ∈ p.1, ∃ r ∈ p.2, overlap q.2 r.2 = true ∧ notBoth q.1 r.1 = c := by
  simp only [conflicts, List.mem_flatMap, List.mem_filterMap, Option.ite_none_right_eq_some,
    Option.some.injEq]

/-- The conflict clauses of two entities say that what they take does not overlap. -/
theorem notBoth_conflict_iff {first second : List (Nat × β)}
    (hfirst : ∀ q ∈ first, (a q.1).isSome = true) (hsecond : ∀ r ∈ second, (a r.1).isSome = true) :
    (∀ q ∈ first, ∀ r ∈ second, overlap q.2 r.2 = true → (notBoth q.1 r.1).eval a = some true) ↔
      ∀ x ∈ taken a first, ∀ y ∈ taken a second, overlap x y = false := by
  constructor
  · intro h x hx y hy
    obtain ⟨v, hv, hvtrue⟩ := mem_taken.mp hx
    obtain ⟨w, hw, hwtrue⟩ := mem_taken.mp hy
    -- Two overlapping candidates cannot both be taken: there is a clause against it.
    by_contra hoverlap
    have hboth := h (v, x) hv (w, y) hw (by simpa using hoverlap)
    rw [notBoth_true_iff (hfirst _ hv) (hsecond _ hw)] at hboth
    exact hboth ⟨hvtrue, hwtrue⟩
  · intro h q hq r hr hoverlap
    rw [notBoth_true_iff (hfirst _ hq) (hsecond _ hr)]
    rintro ⟨hqtrue, hrtrue⟩
    have hapart := h q.2 (mem_taken.mpr ⟨q.1, hq, hqtrue⟩) r.2 (mem_taken.mpr ⟨r.1, hr, hrtrue⟩)
    rw [hoverlap] at hapart
    exact absurd hapart (by decide)

/-- The conflict clauses say that what the entities take is apart. -/
theorem conflicts_true_iff {entities : List (List (Nat × β))}
    (hvalues : ∀ entity ∈ entities, ∀ p ∈ entity, (a p.1).isSome = true) :
    (∀ c ∈ conflicts overlap entities, c.eval a = some true) ↔
      Apart overlap (entities.map (taken a)) := by
  have hclauses : (∀ c ∈ conflicts overlap entities, c.eval a = some true) ↔
      ∀ p ∈ pairs entities, ∀ q ∈ p.1, ∀ r ∈ p.2, overlap q.2 r.2 = true →
        (notBoth q.1 r.1).eval a = some true := by
    constructor
    · intro h p hp q hq r hr hoverlap
      exact h _ (mem_conflicts.mpr ⟨p, hp, q, hq, r, hr, hoverlap, rfl⟩)
    · intro h c hc
      obtain ⟨p, hp, q, hq, r, hr, hoverlap, rfl⟩ := mem_conflicts.mp hc
      exact h p hp q hq r hr hoverlap
  rw [hclauses, Apart, List.pairwise_map, ← forall_mem_pairs]
  refine forall₂_congr fun p hp => ?_
  obtain ⟨hfirst, hsecond⟩ := mem_of_mem_pairs hp
  exact notBoth_conflict_iff (hvalues _ hfirst) (hvalues _ hsecond)

end

end Encoding
end VennDiagram
