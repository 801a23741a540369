import Mathlib.Data.List.Perm.Basic
import VennDiagram.Proofs.Number.Distance
import VennDiagram.Proofs.Placement.Independence

/-!
# `VennDiagram.Proofs.Placement.Picks`: candidates instead of their numbers

A choice numbers candidates, and numbers mean nothing without the lists they point into. A pick is the
candidate itself, or nothing for an entity that has none (`Picked`). What a choice picks and what can be
picked are the same (`forall₂_picked_picks`, `exists_picks_eq`), so there is a feasible choice exactly if
candidates can be picked that do not overlap (`exists_feasibleFor_iff`).

Picks move along when the lists of candidates are put in another order. If it does not matter which of
two candidates comes first when asking whether they overlap, the order of the lists does not matter to
whether there is a feasible choice (`exists_feasibleFor_perm`).
-/

set_option autoImplicit false

namespace VennDiagram

open Encoding (Apart)

variable {β : Type} {overlap : β → β → Bool} {candidates candidates' : List (List β)}
  {choice : List (Option Nat)} {picked : List (Option β)}

/-- One of the candidates, or nothing if there are none. -/
def Picked (candidates : List β) : Option β → Prop
  | none => candidates = []
  | some x => x ∈ candidates

/-- Nothing is picked exactly if there is nothing to pick. -/
theorem Picked.isNone_eq {xs : List β} {pick : Option β} (h : Picked xs pick) :
    pick.isNone = xs.isEmpty := by
  cases pick with
  | none =>
    obtain rfl : xs = [] := h
    rfl
  | some x =>
    have hne : xs ≠ [] := List.ne_nil_of_mem h
    simp [hne]

/-- Where there are candidates, one of them is picked. -/
theorem Picked.exists_mem {xs : List β} {pick : Option β} (h : Picked xs pick) (hne : xs ≠ []) :
    ∃ x ∈ xs, pick = some x := by
  cases pick with
  | none => exact absurd h hne
  | some x => exact ⟨x, h, rfl⟩

/-- A choice that fits picks candidates. -/
theorem forall₂_picked_picks (hfit : List.Forall₂ Fits (candidates.map List.length) choice) :
    List.Forall₂ Picked candidates (picks candidates choice) := by
  induction candidates generalizing choice with
  | nil => exact List.Forall₂.nil
  | cons xs xss ih =>
    cases hfit with
    | @cons _ k _ ks hk hks =>
      have hpick : Picked xs (k.bind (xs[·]?)) := by
        cases k with
        | none => exact List.length_eq_zero_iff.mp hk
        | some k =>
          have hlt : k < xs.length := hk
          rw [Option.bind_some, List.getElem?_eq_getElem hlt]
          exact List.getElem_mem hlt
      exact List.Forall₂.cons hpick (ih hks)

/-- Whatever is picked is picked by a choice that fits. -/
theorem exists_picks_eq (h : List.Forall₂ Picked candidates picked) :
    ∃ choice, List.Forall₂ Fits (candidates.map List.length) choice ∧
      picks candidates choice = picked := by
  induction h with
  | nil => exact ⟨[], List.Forall₂.nil, rfl⟩
  | @cons xs pick _ _ hpick _ ih =>
    obtain ⟨ks, hks, hpicks⟩ := ih
    -- A `none` is picked only where there is no candidate, and is then the choice that fits.
    cases pick with
    | none =>
      obtain rfl : xs = [] := hpick
      exact ⟨none :: ks, List.Forall₂.cons rfl hks, congrArg (none :: ·) hpicks⟩
    | some x =>
      obtain ⟨k, hk, rfl⟩ := List.getElem_of_mem hpick
      refine ⟨some k :: ks, List.Forall₂.cons hk hks, ?_⟩
      rw [picks, List.zipWith_cons_cons, Option.bind_some, List.getElem?_eq_getElem hk]
      exact congrArg (some xs[k] :: ·) hpicks

/-- There is a feasible choice when candidates can be picked that do not overlap. -/
theorem exists_feasibleFor_iff :
    (∃ choice, FeasibleFor overlap candidates choice) ↔
      ∃ picked, List.Forall₂ Picked candidates picked ∧ Apart overlap (picked.map Option.toList) := by
  constructor
  · rintro ⟨choice, h⟩
    exact ⟨_, forall₂_picked_picks h.fits, h.apart⟩
  · rintro ⟨picked, hpicked, hapart⟩
    obtain ⟨choice, hfit, rfl⟩ := exists_picks_eq hpicked
    exact ⟨choice, hfit, hapart⟩

/-- Candidates that do not overlap do not overlap in another order either. -/
theorem apart_perm {entities entities' : List (List β)}
    (hcomm : ∀ x y, overlap x y = overlap y x) (hperm : entities.Perm entities') :
    Apart overlap entities ↔ Apart overlap entities' := by
  refine hperm.pairwise_iff fun {first second} h x hx y hy => ?_
  rw [hcomm]
  exact h y hy x hx

/-- If overlapping goes both ways, the order of the entities does not matter for whether there is a
feasible choice. -/
theorem exists_feasibleFor_of_perm (hcomm : ∀ x y, overlap x y = overlap y x)
    (hperm : candidates'.Perm candidates) (h : ∃ choice, FeasibleFor overlap candidates choice) :
    ∃ choice, FeasibleFor overlap candidates' choice := by
  obtain ⟨picked, hpicked, hapart⟩ := exists_feasibleFor_iff.mp h
  -- The picks are put in the order of the lists they come from.
  obtain ⟨picked', hpicked', hperm'⟩ := List.perm_comp_forall₂ hperm hpicked
  exact exists_feasibleFor_iff.mpr
    ⟨picked', hpicked', (apart_perm hcomm (hperm'.map Option.toList)).mpr hapart⟩

/-- The order of the entities does not matter to whether there is a feasible choice. -/
theorem exists_feasibleFor_perm (hcomm : ∀ x y, overlap x y = overlap y x)
    (hperm : candidates'.Perm candidates) :
    (∃ choice, FeasibleFor overlap candidates' choice) ↔
      ∃ choice, FeasibleFor overlap candidates choice :=
  ⟨exists_feasibleFor_of_perm hcomm hperm.symm, exists_feasibleFor_of_perm hcomm hperm⟩

/-! ### The two kinds of entity -/

section
variable {α : Type} [Scalar α]

/-- Dots overlap both ways. -/
theorem dotsOverlap_comm [SymmetricDistance α] (rules : Rules α) (a b : DotCandidate α) :
    Encoding.dotsOverlap rules a b = Encoding.dotsOverlap rules b a :=
  tooClose_comm _ _ _ _ _

/-- So do labels. -/
theorem labelsOverlap_comm (rules : Rules α) (text₁ : String) (x₁ y₁ : α) (text₂ : String) (x₂ y₂ : α) :
    labelsOverlap rules text₁ x₁ y₁ text₂ x₂ y₂ = labelsOverlap rules text₂ x₂ y₂ text₁ x₁ y₁ := by
  simp only [labelsOverlap, TextBox.apart]
  ac_rfl

end
end VennDiagram
