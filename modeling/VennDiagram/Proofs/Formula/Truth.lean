import Mathlib.Logic.Function.Basic
import VennDiagram.Formula.Clause

/-!
# `VennDiagram.Proofs.Formula.Truth`: what makes a clause true, false or open

`Clause.eval` reads a clause from left to right. The theorems say what it answers without the order:

* `Clause.eval_eq_some_true_iff` and `Clause.eval_eq_some_false_iff`: a clause is true when it has a true
  literal, and false when all its literals are false.
* `Clause.eval_of_extends`: an answer that is not open stays when more variables get values. The search
  relies on this whenever it leaves a node without looking below it.
* `Clause.tally_update`: giving a free variable a value adds to the number of true (false) literals of a
  clause the number of places where the literal stands that becomes true (false). Places count, so
  repeated literals count as often as they stand there.

The search gives values to the variables from one on, so its assignments are `Assignment.ofList` of the
values so far; `Assignment.ofList_append_singleton` says what one more value does.
-/

set_option autoImplicit false

namespace VennDiagram

namespace Assignment

/-- The assignment gives values to the variables `1 .. n`, and to no others. -/
def Covers (a : Assignment) (n : Nat) : Prop :=
  ∀ var, (a var).isSome = true ↔ 1 ≤ var ∧ var ≤ n

/-- Every value that `a` gives, `b` gives as well. -/
def Extends (b a : Assignment) : Prop :=
  ∀ var value, a var = some value → b var = some value

/-- Some clause is false under the assignment. -/
def refutes (a : Assignment) (clauses : List Clause) : Bool :=
  clauses.any fun c => c.eval a = some false

/-- Every clause is true under the assignment. -/
def satisfies (a : Assignment) (clauses : List Clause) : Bool :=
  clauses.all fun c => c.eval a = some true

/-- An assignment refutes clauses exactly if one of them is false. -/
theorem refutes_eq_true_iff {a : Assignment} {clauses : List Clause} :
    a.refutes clauses = true ↔ ∃ c ∈ clauses, c.eval a = some false := by
  simp [refutes]

/-- It does not exactly if none of them is. -/
theorem refutes_eq_false_iff {a : Assignment} {clauses : List Clause} :
    a.refutes clauses = false ↔ ∀ c ∈ clauses, c.eval a ≠ some false := by
  simp [refutes]

/-- It satisfies them exactly if all of them are true. -/
theorem satisfies_eq_true_iff {a : Assignment} {clauses : List Clause} :
    a.satisfies clauses = true ↔ ∀ c ∈ clauses, c.eval a = some true := by
  simp [satisfies]

end Assignment

/-! ### Literals and clauses -/

/-- A variable has its own truth. -/
@[simp] theorem Literal.eval_yes (a : Assignment) (var : Nat) : (Literal.yes var).eval a = a var := by
  show (a var).map (fun value => value) = a var
  exact Option.map_id'

/-- Its negation has the opposite one. -/
@[simp] theorem Literal.eval_no (a : Assignment) (var : Nat) :
    (Literal.no var).eval a = (a var).map (!·) := rfl

/-- A literal is true or false when its variable has a value. -/
theorem Literal.eval_isSome (a : Assignment) (l : Literal) : (l.eval a).isSome = (a l.var).isSome := by
  simp [Literal.eval]

/-- A value that is given stays, and with it the truth of the literal. -/
theorem Literal.eval_of_extends {a b : Assignment} (h : b.Extends a) {l : Literal} {t : Bool}
    (hl : l.eval a = some t) : l.eval b = some t := by
  obtain ⟨value, hvalue, rfl⟩ := Option.map_eq_some_iff.mp hl
  exact Option.map_eq_some_iff.mpr ⟨value, h _ _ hvalue, rfl⟩

/-- Under a value of its variable, the truth of a literal is whether it says that value. -/
theorem Literal.holds_eq (l : Literal) (value : Bool) : l.holds value = (l.positive == value) := by
  unfold Literal.holds
  cases l.positive <;> cases value <;> rfl

namespace Clause

/-- A clause is true when it has a true literal. -/
theorem eval_eq_some_true_iff {a : Assignment} {c : Clause} :
    c.eval a = some true ↔ ∃ l ∈ c, l.eval a = some true := by
  induction c with
  | nil => simp [eval]
  | cons l rest ih =>
    rw [eval]
    cases h : l.eval a with
    | none => simp [h, ih]
    | some t => cases t <;> simp [h, ih]

/-- A clause is false when all its literals are. -/
theorem eval_eq_some_false_iff {a : Assignment} {c : Clause} :
    c.eval a = some false ↔ ∀ l ∈ c, l.eval a = some false := by
  induction c with
  | nil => simp [eval]
  | cons l rest ih =>
    rw [eval]
    cases h : l.eval a with
    | none => simp [h]
    | some t => cases t <;> simp [h, ih]

/-- A clause that is true or false stays so when more variables get values. -/
theorem eval_of_extends {a b : Assignment} (h : b.Extends a) {c : Clause} {t : Bool}
    (hc : c.eval a = some t) : c.eval b = some t := by
  cases t with
  | true =>
    obtain ⟨l, hl, htrue⟩ := eval_eq_some_true_iff.mp hc
    exact eval_eq_some_true_iff.mpr ⟨l, hl, Literal.eval_of_extends h htrue⟩
  | false =>
    have hfalse := eval_eq_some_false_iff.mp hc
    exact eval_eq_some_false_iff.mpr fun l hl => Literal.eval_of_extends h (hfalse l hl)

/-- A clause whose variables all have values is not open: if it is not false, it is true. -/
theorem eval_eq_some_true_of_ne {a : Assignment} {c : Clause}
    (hvalues : ∀ l ∈ c, (a l.var).isSome = true) (hc : c.eval a ≠ some false) :
    c.eval a = some true := by
  rw [Ne, eval_eq_some_false_iff] at hc
  simp only [not_forall] at hc
  obtain ⟨l, hl, hne⟩ := hc
  obtain ⟨t, ht⟩ := Option.isSome_iff_exists.mp ((Literal.eval_isSome a l).trans (hvalues l hl))
  cases t with
  | true => exact eval_eq_some_true_iff.mpr ⟨l, hl, ht⟩
  | false => exact absurd ht hne

/-! ### Counting literals -/

/-- The number of places in a clause whose literal has the given truth. -/
def tally (a : Assignment) (t : Bool) (c : Clause) : Nat :=
  c.countP fun l => l.eval a = some t

/-- The first literal counts if it has the truth that is counted. -/
theorem tally_cons (a : Assignment) (t : Bool) (l : Literal) (c : Clause) :
    tally a t (l :: c) = tally a t c + if l.eval a = some t then 1 else 0 := by
  simp [tally, List.countP_cons]

/-- No more literals are counted than there are. -/
theorem tally_le_length (a : Assignment) (t : Bool) (c : Clause) : tally a t c ≤ c.length :=
  List.countP_le_length

/-- A clause is true exactly if a true literal is counted. -/
theorem tally_true_pos_iff {a : Assignment} {c : Clause} :
    0 < tally a true c ↔ c.eval a = some true := by
  simp [tally, List.countP_pos_iff, eval_eq_some_true_iff]

/-- A clause is false exactly if all its literals are counted as false. -/
theorem tally_false_eq_length_iff {a : Assignment} {c : Clause} :
    tally a false c = c.length ↔ c.eval a = some false := by
  simp [tally, List.countP_eq_length, eval_eq_some_false_iff]

/-- The literals of other variables do not notice a new value. A literal of the variable itself had no
truth before, and now has the truth `t` exactly when it is the literal that `value` and `t` name. -/
theorem eval_update_eq_some_iff {a : Assignment} {var : Nat} (hfree : a var = none) (value t : Bool)
    (l : Literal) :
    l.eval (Function.update a var (some value)) = some t ↔
      l.eval a = some t ∨ l = ⟨var, value == t⟩ := by
  obtain ⟨w, positive⟩ := l
  by_cases hw : w = var
  · subst hw
    simp only [Literal.eval, Function.update_self, Option.map_some, Literal.holds_eq, hfree,
      Option.map_none, reduceCtorEq, false_or, Option.some.injEq, Literal.mk.injEq, true_and]
    cases positive <;> cases value <;> cases t <;> decide
  · simp [Literal.eval, hw]

/-- Giving a free variable a value adds, for each truth, the places of the literal that gets it. -/
theorem tally_update {a : Assignment} {var : Nat} (hfree : a var = none) (value t : Bool)
    (c : Clause) :
    tally (Function.update a var (some value)) t c = tally a t c + c.count ⟨var, value == t⟩ := by
  induction c with
  | nil => rfl
  | cons l c ih =>
    rw [tally_cons, tally_cons, ih, List.count_cons]
    -- The variable was free, so its literals counted for nothing before, and now the one of the value
    -- counts.
    by_cases hl : l = ⟨var, value == t⟩
    · have hopen : l.eval a ≠ some t := by
        subst hl
        simp [Literal.eval, hfree]
      rw [if_pos ((eval_update_eq_some_iff hfree value t l).mpr (Or.inr hl)), if_neg hopen,
        if_pos (by simp [hl])]
      omega
    · have hsame : l.eval (Function.update a var (some value)) = some t ↔ l.eval a = some t := by
        rw [eval_update_eq_some_iff hfree]
        simp [hl]
      simp only [hsame, beq_iff_eq, hl, if_false]
      omega

end Clause

/-! ### Assignments of the first variables -/

namespace Assignment

/-- The assignment that `refutes` clauses keeps doing so when it is extended. -/
theorem refutes_of_extends {a b : Assignment} (h : b.Extends a) {clauses : List Clause}
    (ha : a.refutes clauses = true) : b.refutes clauses = true := by
  obtain ⟨c, hc, hfalse⟩ := refutes_eq_true_iff.mp ha
  exact refutes_eq_true_iff.mpr ⟨c, hc, Clause.eval_of_extends h hfalse⟩

/-- The assignment that `satisfies` clauses keeps doing so when it is extended. -/
theorem satisfies_of_extends {a b : Assignment} (h : b.Extends a) {clauses : List Clause}
    (ha : a.satisfies clauses = true) : b.satisfies clauses = true :=
  satisfies_eq_true_iff.mpr fun c hc =>
    Clause.eval_of_extends h (satisfies_eq_true_iff.mp ha c hc)

/-- An assignment that makes every clause true makes none false. -/
theorem refutes_eq_false_of_satisfies {a : Assignment} {clauses : List Clause}
    (h : a.satisfies clauses = true) : a.refutes clauses = false :=
  refutes_eq_false_iff.mpr fun c hc => by simp [satisfies_eq_true_iff.mp h c hc]

/-- The empty list gives no variable a value. -/
theorem ofList_nil : ofList [] = fun _ => none := by
  funext var
  cases var <;> rfl

/-- A list of `n` values covers the variables `1 .. n`. -/
theorem covers_ofList (values : List Bool) : (ofList values).Covers values.length := by
  intro var
  cases var with
  | zero => simp [ofList]
  | succ i =>
    simp only [ofList, isSome_getElem?]
    omega

/-- A longer list extends a shorter one that it begins with. -/
theorem extends_ofList {p q : List Bool} (h : p <+: q) : (ofList q).Extends (ofList p) := by
  obtain ⟨rest, rfl⟩ := h
  intro var value hvar
  cases var with
  | zero => exact hvar
  | succ i =>
    have hi : i < p.length := (List.getElem?_eq_some_iff.mp hvar).1
    exact (List.getElem?_append_left hi).trans hvar

/-- The first variable without a value. -/
theorem ofList_length_add_one (p : List Bool) : ofList p (p.length + 1) = none := by
  simp [ofList]

/-- One more value at the end of the list is the value of the first variable that had none. -/
theorem ofList_append_singleton (p : List Bool) (value : Bool) :
    ofList (p ++ [value]) = Function.update (ofList p) (p.length + 1) (some value) := by
  funext var
  -- The last value is that of the variable after those in the list; for all others the longer list says
  -- the same.
  by_cases hvar : var = p.length + 1
  · subst hvar
    simp [ofList]
  · rw [Function.update_of_ne hvar]
    cases var with
    | zero => rfl
    | succ i =>
      have hi : i ≠ p.length := by omega
      simp only [ofList, List.getElem?_append]
      by_cases hlt : i < p.length
      · simp [hlt]
      · have hold : p[i]? = none := List.getElem?_eq_none (by omega)
        have hnew : [value][i - p.length]? = none :=
          List.getElem?_eq_none (by rw [List.length_singleton]; omega)
        rw [if_neg hlt, hold, hnew]

/-- An assignment that covers `1 .. n` is the one of the list of its values. -/
theorem eq_ofList_of_covers {a : Assignment} {n : Nat} (h : a.Covers n) :
    ∃ values : List Bool, values.length = n ∧ a = ofList values := by
  refine ⟨(List.range n).map fun i => (a (i + 1)).getD false, by simp, ?_⟩
  funext var
  have hvar := h var
  cases var with
  | zero => simpa [ofList] using hvar
  | succ i =>
    by_cases hi : i < n
    · obtain ⟨value, hvalue⟩ := Option.isSome_iff_exists.mp (hvar.mpr (by omega))
      simp [ofList, hi, hvalue]
    · have hnone : a (i + 1) = none := by
        rw [← Option.not_isSome_iff_eq_none, hvar]
        omega
      simp [ofList, hnone, Nat.le_of_not_lt hi]

end Assignment
end VennDiagram
