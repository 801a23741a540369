import VennDiagram.Proofs.Formula.Consistency

/-!
# `VennDiagram.Proofs.Formula.Undo`: taking a value away restores the counters

The search undoes its decisions in the opposite order, the newest first. The counters do not need that: a
`Change` gives a free variable a value or takes a value away, and `Leads` makes changes in any order. The
states of a run are among those that changes lead to (`Reached.exists_leads`).

What makes undoing exact is that the counters do not remember how they came about. In every state that
changes lead to, each number is the one that the values in the table give it (`Counters.OfValues`). One
change keeps this up (`Change.apply_eq_under`), so a sequence of changes does (`Leads.ofValues`), and two
states with the same values are the same (`Counters.OfValues.eq_of_value?_eq`). It remains to follow the
values, which needs no counters (`valuesAfter`).

A sequence is `Balanced` if, of each variable that it changes, it gives a value and takes it away in turn.
How the changes of different variables mix is free, so values may be taken away in any order.
`Leads.value?_eq_of_balanced` says that such a sequence leaves all values as they were, and
`unassign_restores` puts this together.

A value that makes a clause false is no exception: `Counters.assign` updates the counts of every clause,
also after it has found one that is false.
-/

set_option autoImplicit false

namespace VennDiagram.Search

/-! ### Changes -/

/-- A variable gets a value, or loses the value that it may have. -/
inductive Change where
  | assign (var : Nat) (value : Bool)
  | unassign (var : Nat)
deriving DecidableEq, Repr

namespace Change

/-- The variable that is changed. -/
def var : Change → Nat
  | .assign var _ => var
  | .unassign var => var

/-- What the variable has for a value afterwards. -/
def value? : Change → Option Bool
  | .assign _ value => some value
  | .unassign _ => none

/-- The counters after a change, whatever the flag of `Counters.assign` says. -/
def apply (o : Occurrences) (s : Counters) : Change → Counters
  | .assign var value => (s.assign o var value).1
  | .unassign var => s.unassign o var

/-- The variable has a place in the tables, as every allocated one has, and a value is given only to a
variable without one. -/
structure Allowed (numVars : Nat) (s : Counters) (c : Change) : Prop where
  var_le : c.var ≤ numVars
  free : c.value?.isSome = true → s.value? c.var = none

end Change

/-- A sequence of changes, each of them allowed where it is made, leads from one state of the counters to
another. -/
inductive Leads (f : Formula) : Counters → List Change → Counters → Prop where
  | nil {s : Counters} : Leads f s [] s
  | cons {s t : Counters} {c : Change} {changes : List Change} (hc : c.Allowed f.numVars s)
      (h : Leads f (c.apply (.ofClauses f.numVars f.clauses) s) changes t) : Leads f s (c :: changes) t

variable {f : Formula} {s t : Counters} {c : Change} {changes : List Change} {a b : Assignment}
  {var : Nat}

/-! ### The values decide everything -/

/-- Every number is the one that the values in the table give it. -/
def Counters.OfValues (f : Formula) (s : Counters) : Prop :=
  s = under f.numVars f.clauses s.value?

namespace Counters

/-- The state that stands for an assignment stands for its own values. -/
theorem ofValues_under (h : ∀ var, f.numVars < var → a var = none) :
    (under f.numVars f.clauses a).OfValues f := by
  rw [OfValues, value?_under_eq h]

/-- The blank state stands for no values. -/
theorem ofValues_blank (f : Formula) : (blank f.numVars f.clauses.length).OfValues f := by
  rw [blank_eq_under, Assignment.ofList_nil]
  exact ofValues_under fun _ _ => rfl

/-- No variable beyond the allocated ones has a value. -/
theorem OfValues.value?_of_lt (hs : s.OfValues f) (hvar : f.numVars < var) : s.value? var = none := by
  rw [hs]
  exact value?_under_of_lt hvar

/-- The counters do not remember how they came about. -/
theorem OfValues.eq_of_value?_eq (hs : s.OfValues f) (ht : t.OfValues f)
    (h : s.value? = t.value?) : s = t :=
  calc s = under f.numVars f.clauses s.value? := hs
    _ = under f.numVars f.clauses t.value? := by rw [h]
    _ = t := ht.symm

end Counters

/-- A change replaces the value of its variable, and all numbers follow. -/
theorem Change.apply_eq_under (hs : s.OfValues f) (hc : c.Allowed f.numVars s) :
    c.apply (.ofClauses f.numVars f.clauses) s
      = .under f.numVars f.clauses (Function.update s.value? c.var c.value?) := by
  cases c with
  | assign var value =>
    have hassign := Counters.assign_under f.clauses hc.var_le (hc.free rfl) value
    rw [← hs] at hassign
    exact hassign
  | unassign var =>
    have hvar : var ≤ f.numVars := hc.var_le
    show s.unassign _ var = .under _ _ (Function.update s.value? var none)
    cases hvalue : s.value? var with
    | none => rw [← hvalue, Function.update_eq_self, ← hs, Counters.unassign, hvalue]
    | some value =>
      -- The values in the table are those without the variable, and its value on top of them.
      have hback : Function.update (Function.update s.value? var none) var (some value) = s.value? := by
        rw [Function.update_idem, ← hvalue, Function.update_eq_self]
      have hunassign : (Counters.under f.numVars f.clauses _).unassign _ var = _ :=
        Counters.unassign_under hvar (Function.update_self var none s.value?) value
      rwa [hback, ← hs] at hunassign

/-- An assignment of allocated variables stays one under an allowed change. -/
theorem Change.Allowed.update_of_lt (hc : c.Allowed f.numVars s) (hs : s.OfValues f)
    (hvar : f.numVars < var) : Function.update s.value? c.var c.value? var = none := by
  have hle := hc.var_le
  rw [Function.update_of_ne (by omega), hs.value?_of_lt hvar]

/-- A change gives its variable the new value and leaves the others. -/
theorem Change.value?_apply (hs : s.OfValues f) (hc : c.Allowed f.numVars s) :
    (c.apply (.ofClauses f.numVars f.clauses) s).value?
      = Function.update s.value? c.var c.value? := by
  rw [apply_eq_under hs hc]
  exact Counters.value?_under_eq fun _ hvar => hc.update_of_lt hs hvar

/-- A state that stands for its values does so after a change. -/
theorem Change.ofValues_apply (hs : s.OfValues f) (hc : c.Allowed f.numVars s) :
    (c.apply (.ofClauses f.numVars f.clauses) s).OfValues f := by
  rw [apply_eq_under hs hc]
  exact Counters.ofValues_under fun _ hvar => hc.update_of_lt hs hvar

/-- It does so after any changes. -/
theorem Leads.ofValues (h : Leads f s changes t) (hs : s.OfValues f) : t.OfValues f := by
  induction h with
  | nil => exact hs
  | cons hc _ ih => exact ih (Change.ofValues_apply hs hc)

/-! ### Following the values -/

/-- The values after changes, if each of them does what it says. -/
def valuesAfter (a : Assignment) : List Change → Assignment
  | [] => a
  | c :: changes => valuesAfter (Function.update a c.var c.value?) changes

/-- After changes the values are those that the changes make. -/
theorem Leads.value?_eq (h : Leads f s changes t) (hs : s.OfValues f) :
    t.value? = valuesAfter s.value? changes := by
  induction h with
  | nil => rfl
  | @cons s t c changes hc _ ih =>
    rw [ih (Change.ofValues_apply hs hc), Change.value?_apply hs hc]
    rfl

/-- The value of a variable in the end depends on its own value at the start. -/
theorem valuesAfter_congr (h : a var = b var) (changes : List Change) :
    valuesAfter a changes var = valuesAfter b changes var := by
  induction changes generalizing a b with
  | nil => exact h
  | cons c changes ih =>
    refine ih ?_
    by_cases hc : var = c.var
    · rw [hc, Function.update_self, Function.update_self]
    · rw [Function.update_of_ne hc, Function.update_of_ne hc, h]

/-- Only the changes of a variable matter for its value. -/
theorem valuesAfter_filter (a : Assignment) (changes : List Change) (var : Nat) :
    valuesAfter a (changes.filter fun c => c.var = var) var = valuesAfter a changes var := by
  induction changes generalizing a with
  | nil => rfl
  | cons c changes ih =>
    by_cases hc : c.var = var
    · rw [List.filter_cons_of_pos (by simpa using hc)]
      exact ih _
    · rw [List.filter_cons_of_neg (by simpa using hc), ih]
      exact valuesAfter_congr (Function.update_of_ne (Ne.symm hc) _ _).symm changes

/-! ### Balanced changes -/

/-- A value is given and taken away in turn, and there is none in the end. -/
def inTurn : List Change → Bool
  | [] => true
  | .assign _ _ :: .unassign _ :: rest => inTurn rest
  | _ => false

/-- Of each variable, a value is given and taken away in turn. Changes of different variables may stand in
any order. -/
def Balanced (changes : List Change) : Prop :=
  ∀ c ∈ changes, inTurn (changes.filter fun d => d.var = c.var) = true

instance (changes : List Change) : Decidable (Balanced changes) :=
  inferInstanceAs (Decidable (∀ c ∈ changes, _))

/-- Changes in turn begin by giving a value. -/
theorem exists_assign_of_inTurn (h : inTurn (c :: changes) = true) :
    ∃ var value, c = .assign var value := by
  cases c with
  | assign var value => exact ⟨var, value, rfl⟩
  | unassign var => simp [inTurn] at h

/-- Changes of a free variable in turn leave it free. -/
theorem valuesAfter_of_inTurn (h : inTurn changes = true) (hvar : ∀ c ∈ changes, c.var = var)
    (hfree : a var = none) : valuesAfter a changes var = none := by
  fun_induction inTurn changes generalizing a with
  | case1 => exact hfree
  | case2 w value w' rest ih =>
    -- After the pair the variable is free again, which is all that the rest needs.
    refine ih h (fun c hc => hvar c (by simp [hc])) ?_
    obtain rfl : w' = var := hvar (.unassign w') (by simp)
    exact Function.update_self _ _ _
  | case3 => simp at h

/-- A variable whose first change gives it a value is free at the start. -/
theorem Leads.value?_eq_none_of_first (h : Leads f s changes t) (hs : s.OfValues f) {value : Bool}
    {w : Nat} {rest : List Change}
    (hfirst : (changes.filter fun c => c.var = var) = .assign w value :: rest) :
    s.value? var = none := by
  induction h with
  | nil => simp at hfirst
  | @cons s t c changes hc _ ih =>
    by_cases hcvar : c.var = var
    · rw [List.filter_cons_of_pos (by simpa using hcvar)] at hfirst
      obtain ⟨rfl, -⟩ := List.cons.inj hfirst
      exact hcvar ▸ hc.free rfl
    · rw [List.filter_cons_of_neg (by simpa using hcvar)] at hfirst
      have hrest := ih (Change.ofValues_apply hs hc) hfirst
      rwa [Change.value?_apply hs hc, Function.update_of_ne (Ne.symm hcvar)] at hrest

/-- Balanced changes leave all values as they were. -/
theorem Leads.value?_eq_of_balanced (h : Leads f s changes t) (hs : s.OfValues f)
    (hbalanced : Balanced changes) : t.value? = s.value? := by
  funext var
  rw [h.value?_eq hs, ← valuesAfter_filter]
  have hown : ∀ c ∈ changes.filter fun c => c.var = var, c ∈ changes ∧ c.var = var := by
    simp [List.mem_filter]
  -- A variable without changes keeps what it has. One with changes is free before them and after them.
  cases hfilter : changes.filter fun c => c.var = var with
  | nil => rfl
  | cons c rest =>
    rw [hfilter] at hown
    obtain ⟨hmem, hcvar⟩ := hown c List.mem_cons_self
    have hinTurn := hbalanced c hmem
    rw [hcvar, hfilter] at hinTurn
    obtain ⟨w, value, rfl⟩ := exists_assign_of_inTurn hinTurn
    have hfree := h.value?_eq_none_of_first hs hfilter
    rw [valuesAfter_of_inTurn hinTurn (fun d hd => (hown d hd).2) hfree, hfree]

/-! ### The changes of a search -/

/-- One more change at the end. -/
theorem Leads.concat (h : Leads f s changes t) (hc : c.Allowed f.numVars t) :
    Leads f s (changes ++ [c]) (c.apply (.ofClauses f.numVars f.clauses) t) := by
  induction h with
  | nil => exact .cons hc .nil
  | cons hfirst _ ih => exact .cons hfirst (ih hc)

/-- The next variable is free. -/
theorem Fits.allowed_assign {trail : List Decision} {p : Progress} (h : Fits f trail p)
    (hvar : var = trail.length + 1) (hroom : trail.length < f.numVars) (value : Bool) :
    (Change.assign var value).Allowed f.numVars p.counters where
  var_le := by
    show var ≤ f.numVars
    omega
  free _ := by
    show p.counters.value? var = none
    rw [h.value?_eq, hvar, ← length_nodeOf]
    exact Assignment.ofList_length_add_one _

/-- The variable of the newest decision is allocated. -/
theorem Fits.allowed_unassign {d : Decision} {trail : List Decision} {p : Progress}
    (h : Fits f (d :: trail) p) : (Change.unassign d.var).Allowed f.numVars p.counters where
  var_le := h.var_eq.trans_le h.length_le
  free := nofun

/-- In every state of a run, the counters are some that changes lead to. -/
theorem Reached.exists_leads {tried : List (List Bool)} {s : State} (h : Reached f tried s) :
    ∃ changes, Leads f (.blank f.numVars f.clauses.length) changes s.progress.counters := by
  induction h with
  | start => exact ⟨[], .nil⟩
  | step hs hstep ih =>
    obtain ⟨changes, hleads⟩ := ih
    have hconsistent := hs.consistent
    cases hstep with
    | finish => exact ⟨changes, hleads⟩
    | choose => exact ⟨changes, hleads⟩
    | fail => exact ⟨changes, hleads⟩
    -- A try is a change whether it makes a clause false or not.
    | enter =>
      obtain ⟨hfits, hvar, hroom⟩ := hconsistent
      exact ⟨_, hleads.concat (hfits.allowed_assign hvar hroom _)⟩
    | clash =>
      obtain ⟨hfits, hvar, hroom⟩ := hconsistent
      exact ⟨_, hleads.concat (hfits.allowed_assign hvar hroom _)⟩
    | flip => exact ⟨_, hleads.concat hconsistent.allowed_unassign⟩
    | giveUp => exact ⟨_, hleads.concat hconsistent.allowed_unassign⟩

/-! ### Main result -/

/-- Taking a value away leads to a given state without it exactly if all other values are those of that
state. -/
theorem Counters.OfValues.unassign_eq_iff (hs : s.OfValues f) (ht : t.OfValues f)
    (hvar : var ≤ f.numVars) (hfree : s.value? var = none) :
    t.unassign (.ofClauses f.numVars f.clauses) var = s ↔
      ∀ other, other ≠ var → t.value? other = s.value? other := by
  have hallowed : (Change.unassign var).Allowed f.numVars t := ⟨hvar, nofun⟩
  have hown : (t.unassign (.ofClauses f.numVars f.clauses) var).OfValues f :=
    Change.ofValues_apply ht hallowed
  have hvalues : (t.unassign (.ofClauses f.numVars f.clauses) var).value?
      = Function.update t.value? var none := Change.value?_apply ht hallowed
  calc t.unassign (.ofClauses f.numVars f.clauses) var = s
      ↔ (t.unassign (.ofClauses f.numVars f.clauses) var).value? = s.value? :=
        ⟨congrArg Counters.value?, hown.eq_of_value?_eq hs⟩
    _ ↔ none = s.value? var ∧ ∀ other, other ≠ var → t.value? other = s.value? other := by
        rw [hvalues, Function.update_eq_iff]
    _ ↔ ∀ other, other ≠ var → t.value? other = s.value? other :=
        and_iff_right hfree.symm

/-- Whatever changes led to a state, a free variable gets a value there, and further changes are made.
Then taking the value away restores all counters exactly if every other variable has the value again that
it had, and so it does after balanced changes. The flag of `Counters.assign` plays no part in this. -/
theorem unassign_restores (f : Formula) (past changes : List Change) (s t : Counters) (var : Nat)
    (value : Bool) (hs : Leads f (.blank f.numVars f.clauses.length) past s)
    (hvar : var ≤ f.numVars) (hfree : s.value? var = none)
    (ht : Leads f (s.assign (.ofClauses f.numVars f.clauses) var value).1 changes t) :
    (t.unassign (.ofClauses f.numVars f.clauses) var = s ↔
      ∀ other, other ≠ var → t.value? other = s.value? other) ∧
    (Balanced changes → t.unassign (.ofClauses f.numVars f.clauses) var = s) := by
  have hown : s.OfValues f := hs.ofValues (Counters.ofValues_blank f)
  have hallowed : (Change.assign var value).Allowed f.numVars s := ⟨hvar, fun _ => hfree⟩
  have hnew : (s.assign (.ofClauses f.numVars f.clauses) var value).1.OfValues f :=
    Change.ofValues_apply hown hallowed
  have hvalues : (s.assign (.ofClauses f.numVars f.clauses) var value).1.value?
      = Function.update s.value? var (some value) := Change.value?_apply hown hallowed
  have hiff := hown.unassign_eq_iff (ht.ofValues hnew) hvar hfree
  -- Balanced changes keep all values of the state that they start from, the new one among them.
  refine ⟨hiff, fun hbalanced => hiff.mpr fun other hother => ?_⟩
  rw [ht.value?_eq_of_balanced hnew hbalanced, hvalues, Function.update_of_ne hother]

/-- The value makes a clause false that repeats a literal, and the values in between are taken away in the
order in which they were given. -/
theorem unassign_restores_overlapping :
    let f : Formula :=
      ⟨4, [[.yes 1, .no 1, .yes 1], [.no 1, .no 2, .no 1], [.yes 2, .yes 3, .no 4, .yes 9]]⟩
    let o : Occurrences := .ofClauses f.numVars f.clauses
    let past : List Change := [.assign 3 true, .assign 2 true, .unassign 3]
    let s := (((Counters.blank 4 3).assign o 3 true).1.assign o 2 true).1.unassign o 3
    let changes : List Change := [.assign 3 true, .assign 4 false, .unassign 3, .unassign 4]
    ∃ t, Leads f (.blank f.numVars f.clauses.length) past s ∧ 1 ≤ f.numVars ∧ s.value? 1 = none ∧
      Leads f (s.assign o 1 true).1 changes t ∧ Balanced changes ∧ (s.assign o 1 true).2 = false ∧
      (s.trueCount, s.falseCount, s.satisfied) = (#[0, 0, 1], #[0, 1, 0], 1) ∧
      (t.trueCount, t.falseCount, t.satisfied) = (#[2, 0, 1], #[1, 3, 0], 2) ∧
      t.unassign o 1 = s := by
  intro f o past s changes
  have hs : Leads f (.blank f.numVars f.clauses.length) past s :=
    .cons ⟨by decide, by decide +kernel⟩ <| .cons ⟨by decide, by decide +kernel⟩ <|
      .cons ⟨by decide, nofun⟩ .nil
  -- The values are taken away in the order in which they were given, not in the opposite one.
  have ht : Leads f (s.assign o 1 true).1 changes _ :=
    .cons ⟨by decide, by decide +kernel⟩ <| .cons ⟨by decide, by decide +kernel⟩ <|
      .cons ⟨by decide, nofun⟩ <| .cons ⟨by decide, nofun⟩ .nil
  have hfree : s.value? 1 = none := by decide +kernel
  have hbalanced : Balanced changes := by decide
  obtain ⟨-, hrestores⟩ := unassign_restores f past changes s _ 1 true hs (by decide) hfree ht
  exact ⟨_, hs, by decide, hfree, ht, hbalanced, by decide +kernel, by decide +kernel,
    by decide +kernel, hrestores hbalanced⟩

end VennDiagram.Search
