import Mathlib.Data.List.Forall2

/-!
# `VennDiagram.Proofs.Steps`: steps that can be taken

A step is a computation that ends with a value or an error. The first lemmas say when steps that are put
together end with a value. A list of steps that all end with a value is taken as the list of these values:
the lemmas on lists say so for the ways in which the library goes through a list step by step, with errors
(`mapM_eq_ok_iff`) and without (`mapM_eq_some_iff`).

`FailsOnly` says which errors a step may end with. Steps that are put together end with such an error if
each of them does. In `FailsFor` there are two kinds of them, a special one and all the others, and a reason
for either kind.
-/

set_option autoImplicit false

namespace VennDiagram

variable {ε β γ : Type} {xs : List β}

/-- After a step that succeeds comes the next. -/
theorem bind_ok {x : β} {f : β → Except ε γ} : (Except.ok x >>= f) = f x := rfl

/-- Two steps succeed exactly if the first does and the second does after it. -/
theorem bind_eq_ok_iff {x : Except ε β} {f : β → Except ε γ} {b : γ} :
    (x >>= f) = .ok b ↔ ∃ a, x = .ok a ∧ f a = .ok b := by
  cases x <;> simp [bind, Except.bind]

/-- A function of what succeeds succeeds with its value there. -/
theorem map_eq_ok_iff {x : Except ε β} {f : β → γ} {b : γ} :
    x.map f = .ok b ↔ ∃ a, x = .ok a ∧ f a = b := by
  cases x <;> simp [Except.map]

/-- Renaming errors changes nothing about success. -/
theorem mapError_eq_ok_iff {ε' : Type} {x : Except ε β} {f : ε → ε'} {a : β} :
    x.mapError f = .ok a ↔ x = .ok a := by
  cases x <;> simp [Except.mapError]

/-- An error may be renamed where it happens. -/
theorem mapError_bind {ε' : Type} (x : Except ε β) (f : β → Except ε γ) (g : ε → ε') :
    (x >>= f).mapError g = x.mapError g >>= fun b => (f b).mapError g := by
  cases x <;> rfl

/-- Forgetting the error changes nothing about success. -/
theorem toOption_eq_some_iff {x : Except ε β} {b : β} : x.toOption = some b ↔ x = .ok b := by
  cases x <;> simp [Except.toOption]

/-! ### Lists of steps -/

/-- Each value comes from the step at its position. -/
theorem mapM_eq_ok_iff {f : β → Except ε γ} {ys : List γ} :
    xs.mapM f = .ok ys ↔ List.Forall₂ (fun x y => f x = .ok y) xs ys := by
  induction xs generalizing ys with
  | nil =>
    rw [List.forall₂_nil_left_iff]
    exact ⟨fun h => (Except.ok.inj h).symm, fun h => h ▸ rfl⟩
  | cons x xs ih =>
    rw [List.mapM_cons, bind_eq_ok_iff, List.forall₂_cons_left_iff]
    constructor
    · rintro ⟨y, hy, h⟩
      obtain ⟨rest, hrest, h⟩ := bind_eq_ok_iff.mp h
      exact ⟨y, rest, hy, ih.mp hrest, (Except.ok.inj h).symm⟩
    · rintro ⟨y, rest, hy, hrest, rfl⟩
      exact ⟨y, hy, bind_eq_ok_iff.mpr ⟨rest, ih.mpr hrest, rfl⟩⟩

/-- Each item is related to some value. -/
theorem exists_of_forall₂ {R : β → γ → Prop} {ys : List γ} (h : List.Forall₂ R xs ys) :
    ∀ x ∈ xs, ∃ y, R x y := by
  induction h with
  | nil => exact List.forall_mem_nil _
  | cons hxy _ ih => exact List.forall_mem_cons.mpr ⟨⟨_, hxy⟩, ih⟩

/-- Items that are each related to some value are related to a list of values. -/
theorem exists_forall₂_iff {R : β → γ → Prop} :
    (∃ ys, List.Forall₂ R xs ys) ↔ ∀ x ∈ xs, ∃ y, R x y := by
  refine ⟨fun ⟨ys, h⟩ => exists_of_forall₂ h, fun h => ?_⟩
  induction xs with
  | nil => exact ⟨[], .nil⟩
  | cons x xs ih =>
    obtain ⟨⟨y, hy⟩, hxs⟩ := List.forall_mem_cons.mp h
    obtain ⟨ys, hys⟩ := ih hxs
    exact ⟨y :: ys, .cons hy hys⟩

/-- All steps succeed exactly if each does. -/
theorem exists_mapM_eq_ok_iff {f : β → Except ε γ} :
    (∃ ys, xs.mapM f = .ok ys) ↔ ∀ x ∈ xs, ∃ y, f x = .ok y := by
  simp only [mapM_eq_ok_iff]
  exact exists_forall₂_iff

/-- Steps that succeed make a list of their values. -/
theorem mapM_eq_ok {f : β → Except ε γ} {g : β → γ} (h : ∀ x ∈ xs, f x = .ok (g x)) :
    xs.mapM f = .ok (xs.map g) :=
  mapM_eq_ok_iff.mpr (List.forall₂_map_right_iff.mpr (List.forall₂_same.mpr h))

/-- An error of a step may be renamed in the step. -/
theorem mapError_mapM {ε' : Type} (f : β → Except ε γ) (g : ε → ε') :
    (xs.mapM f).mapError g = xs.mapM fun x => (f x).mapError g := by
  induction xs with
  | nil => rfl
  | cons x xs ih =>
    rw [List.mapM_cons, List.mapM_cons, ← ih, mapError_bind]
    refine congrArg (_ >>= ·) (funext fun y => ?_)
    rw [mapError_bind]
    rfl

/-- Each value comes from the step at its position, which may be told that position. -/
theorem forall₂_of_mapM_zipIdx_eq_ok (f : β → Nat → Except ε γ) {R : β → γ → Prop}
    (hf : ∀ x i y, f x i = .ok y → R x y) {ys : List γ}
    (h : (xs.zipIdx.mapM fun (x, i) => f x i) = .ok ys) : List.Forall₂ R xs ys := by
  have hsteps := (mapM_eq_ok_iff.mp h).imp fun p y hp => hf p.1 p.2 y hp
  have hvalues := List.forall₂_map_left_iff.mpr hsteps
  rwa [List.zipIdx_map_fst] at hvalues

/-- Each step may start from what something else was made into. -/
theorem mapM_map_eq_ok {δ : Type} {f : β → Except ε γ} {make : δ → β} {g : δ → γ} {ys : List δ}
    (h : ∀ y ∈ ys, f (make y) = .ok (g y)) : (ys.map make).mapM f = .ok (ys.map g) := by
  rw [List.mapM_map]
  exact mapM_eq_ok h

/-- Each step may be told its position, and start from what something else was made into. -/
theorem mapM_zipIdx_map_eq_ok {δ : Type} (f : β → Nat → Except ε γ) (make : δ → β) {g : δ → γ}
    {ys : List δ} (h : ∀ y ∈ ys, ∀ i, f (make y) i = .ok (g y)) :
    ((ys.map make).zipIdx.mapM fun (x, i) => f x i) = .ok (ys.map g) := by
  have hsteps : ∀ p ∈ ys.zipIdx, f (make p.1) p.2 = .ok (g p.1) :=
    fun p hp => h p.1 (List.fst_mem_of_mem_zipIdx hp) p.2
  have hvalues : (ys.zipIdx.map fun p => g p.1) = (ys.zipIdx.map Prod.fst).map g := List.map_map.symm
  rw [List.zipIdx_map, List.mapM_map]
  refine (mapM_eq_ok hsteps).trans ?_
  rw [hvalues, List.zipIdx_map_fst]

/-- Steps that may leave something out make a list of the rest. -/
theorem filterMapM_eq_ok {f : β → Except ε (Option γ)} {g : β → Option γ}
    (h : ∀ x ∈ xs, f x = .ok (g x)) : xs.filterMapM f = .ok (xs.filterMap g) := by
  induction xs with
  | nil => rfl
  | cons x xs ih =>
    obtain ⟨hx, hxs⟩ := List.forall_mem_cons.mp h
    rw [List.filterMapM_cons, hx, bind_ok, ih hxs, List.filterMap_cons]
    cases g x <;> rfl

/-- Two steps that do not depend on each other succeed exactly if both do. -/
theorem exists_bind_bind_eq_ok_iff {δ : Type} {x : Except ε β} {y : Except ε γ} {f : β → γ → δ} :
    (∃ d, (x >>= fun b => y >>= fun c => pure (f b c)) = .ok d) ↔
      (∃ b, x = .ok b) ∧ ∃ c, y = .ok c := by
  cases x <;> cases y <;> simp [bind, Except.bind, pure, Except.pure]

/-! ### Lists of values that may be missing -/

/-- Lists of the same optional values, all of them there, are the same. -/
theorem map_some_inj {β : Type} {xs ys : List β} : xs.map some = ys.map some ↔ xs = ys :=
  List.map_inj_right fun _ _ => Option.some.inj

/-- Values that are all there are the values of a list. -/
theorem exists_map_some_eq {β γ : Type} {f : β → Option γ} {xs : List β}
    (h : ∀ x ∈ xs, (f x).isSome = true) : ∃ ys : List γ, ys.map some = xs.map f := by
  induction xs with
  | nil => exact ⟨[], rfl⟩
  | cons x xs ih =>
    obtain ⟨y, hy⟩ := Option.isSome_iff_exists.mp (h x List.mem_cons_self)
    obtain ⟨ys, hys⟩ := ih fun x hx => h x (List.mem_cons_of_mem _ hx)
    exact ⟨y :: ys, by rw [List.map_cons, List.map_cons, hy, hys]⟩

/-- Reading every element of a list succeeds when each of them can be read. -/
theorem mapM_eq_some_iff {β γ : Type} {f : β → Option γ} {xs : List β} {ys : List γ} :
    xs.mapM f = some ys ↔ xs.map f = ys.map some := by
  induction xs generalizing ys with
  | nil => cases ys <;> simp
  | cons x xs ih =>
    rw [List.mapM_cons, List.map_cons]
    cases hx : f x with
    | none => cases ys <;> simp
    | some z =>
      cases hxs : xs.mapM f with
      | none =>
        have hnone : ∀ zs : List γ, xs.map f ≠ zs.map some := fun zs hzs => by
          rw [ih.mpr hzs] at hxs
          exact absurd hxs (by simp)
        cases ys with
        | nil => simp
        | cons y ys => simp [hnone]
      | some zs =>
        rw [ih.mp hxs]
        cases ys with
        | nil => simp
        | cons y ys => simp [map_some_inj]

/-! ### Ways to fail -/

/-- If the step fails, it is with an error of which `p` holds. -/
def FailsOnly (p : ε → Prop) (x : Except ε β) : Prop := ∀ e, x = .error e → p e

namespace FailsOnly

variable {p q : ε → Prop}

/-- What succeeds does not fail. -/
theorem ok (b : β) : FailsOnly p (.ok b) := fun _ h => nomatch h

/-- What fails fails as it does. -/
theorem error {e : ε} (h : p e) : FailsOnly (β := β) p (.error e) := fun _ he => Except.error.inj he ▸ h

/-- More errors may be allowed. -/
theorem mono {x : Except ε β} (hx : FailsOnly p x) (h : ∀ e, p e → q e) : FailsOnly q x :=
  fun e he => h e (hx e he)

/-- Two steps, one after the other. -/
theorem bind {x : Except ε β} {f : β → Except ε γ} (hx : FailsOnly p x)
    (hf : ∀ b, x = .ok b → FailsOnly p (f b)) : FailsOnly p (x >>= f) := by
  cases x with
  | error e => exact fun e' h => hx e' (congrArg Except.error (Except.error.inj h))
  | ok b => exact hf b rfl

/-- A function of what succeeds does not fail. -/
theorem map {x : Except ε β} {f : β → γ} (hx : FailsOnly p x) : FailsOnly p (x.map f) := by
  cases x with
  | error e => exact fun e' h => hx e' (congrArg Except.error (Except.error.inj h))
  | ok b => exact ok (f b)

/-- A step for each member of a list. -/
theorem mapM {f : β → Except ε γ} (h : ∀ x ∈ xs, FailsOnly p (f x)) : FailsOnly p (xs.mapM f) := by
  induction xs with
  | nil => exact ok []
  | cons x xs ih =>
    obtain ⟨hx, hxs⟩ := List.forall_mem_cons.mp h
    rw [List.mapM_cons]
    exact hx.bind fun y _ => (ih hxs).bind fun ys _ => ok (y :: ys)

end FailsOnly

/-! ### Reasons to fail -/

/-- If the step fails, it is with the error `special` and for the reason `p`, or with another error and for
the reason `q`. -/
def FailsFor (special : ε) (p q : Prop) (x : Except ε β) : Prop :=
  FailsOnly (fun e => e = special ∧ p ∨ e ≠ special ∧ q) x

namespace FailsFor

variable {special : ε} {p q p' q' : Prop}

/-- What succeeds does not fail. -/
theorem ok (b : β) : FailsFor special p q (.ok b) := FailsOnly.ok b

/-- The special error needs its own reason. -/
theorem special_error (hp : p) : FailsFor (β := β) special p q (.error special) :=
  FailsOnly.error (Or.inl ⟨rfl, hp⟩)

/-- Every other error needs the other one. -/
theorem error {e : ε} (he : e ≠ special) (hq : q) : FailsFor (β := β) special p q (.error e) :=
  FailsOnly.error (Or.inr ⟨he, hq⟩)

/-- The reasons may be weakened. -/
theorem mono {x : Except ε β} (h : FailsFor special p q x) (hp : p → p') (hq : q → q') :
    FailsFor special p' q' x :=
  FailsOnly.mono h fun _ he => he.imp (.imp_right hp) (.imp_right hq)

/-- A step may follow that has the same reasons to fail. -/
theorem bind {x : Except ε β} {f : β → Except ε γ} (hx : FailsFor special p q x)
    (hf : ∀ b, x = .ok b → FailsFor special p q (f b)) : FailsFor special p q (x >>= f) :=
  FailsOnly.bind hx hf

/-- A function of what succeeds does not fail. -/
theorem map {x : Except ε β} {f : β → γ} (hx : FailsFor special p q x) : FailsFor special p q (x.map f) :=
  FailsOnly.map hx

/-- Steps in a row have the reasons of each. -/
theorem mapM {f : β → Except ε γ} (h : ∀ x ∈ xs, FailsFor special p q (f x)) :
    FailsFor special p q (xs.mapM f) :=
  FailsOnly.mapM h

/-- What has neither reason to fail does not. -/
theorem exists_ok {x : Except ε β} (h : FailsFor special p q x) (hp : ¬ p) (hq : ¬ q) :
    ∃ b, x = .ok b := by
  cases x with
  | ok b => exact ⟨b, rfl⟩
  | error e =>
    rcases h e rfl with ⟨-, hreason⟩ | ⟨-, hreason⟩
    · exact absurd hreason hp
    · exact absurd hreason hq

/-- What fails without one of the two reasons fails for the other. -/
theorem eq_special {x : Except ε β} (h : FailsFor special p q x) (hq : ¬ q) {e : ε} (he : x = .error e) :
    e = special :=
  (h e he).elim And.left fun hother => absurd hother.2 hq

end FailsFor

end VennDiagram
