import Mathlib.Data.List.Lex
import VennDiagram.Formula.Result
import VennDiagram.Proofs.Formula.Truth

/-!
# `VennDiagram.Proofs.Formula.Exploration`: the search as a recursion

`explore` is the search without a trail and without counters. A node is a list of values for the first
variables. A node fails if some clause is false under it, and is good if all clauses are true or all
variables have values. Otherwise its true branch is explored and, if that fails, its false branch. Every
clause is evaluated anew at every node.

An exploration records what it did: the nodes entered, in order, and the nodes both of whose branches
failed. `Exploration.effort` counts them.

* `explore_none`: if nothing was found, every list of values for all variables that continues the node
  makes a clause false.
* `Found` says what a node that was found is like, and `explore_found` that it is like this: padded with
  true values it is the first of all continuations that make no clause false, and no node on the way to
  it was good before.

The order of continuations is that of `Earlier`: the first variable counts most, and true comes before
false.
-/

set_option autoImplicit false

namespace VennDiagram

/-- One list of values comes before another if it is true where they first differ. -/
def Earlier : List Bool → List Bool → Prop :=
  List.Lex fun a b => a = true ∧ b = false

/-- Of two nodes only one comes earlier. -/
theorem Earlier.asymm {p q : List Bool} (h : Earlier p q) : ¬ Earlier q p := by
  have hvalues : Std.Asymm fun a b : Bool => a = true ∧ b = false := ⟨by decide⟩
  exact Std.Asymm.asymm (r := List.Lex fun a b : Bool => a = true ∧ b = false) p q h

/-- All continuations with true come before all those with false. -/
theorem earlier_of_branches {p q r : List Bool} (hq : p ++ [true] <+: q) (hr : p ++ [false] <+: r) :
    Earlier q r := by
  obtain ⟨s, rfl⟩ := hq
  obtain ⟨t, rfl⟩ := hr
  rw [List.append_assoc, List.append_assoc]
  exact List.Lex.append_left _ (List.Lex.rel ⟨rfl, rfl⟩) p

/-- Nothing comes before the list of true values. -/
theorem eq_or_earlier_replicate (values : List Bool) :
    values = List.replicate values.length true ∨
      Earlier (List.replicate values.length true) values := by
  induction values with
  | nil => exact Or.inl rfl
  | cons value values ih =>
    rw [List.length_cons, List.replicate_succ]
    cases value with
    | true => exact ih.imp (congrArg _) List.Lex.cons
    | false => exact Or.inr (List.Lex.rel ⟨rfl, rfl⟩)

namespace Search

/-- What exploring the nodes below a node brings: the node that was found, the nodes entered on the way,
in order, and those both of whose branches failed. -/
structure Exploration where
  found : Option (List Bool)
  entered : List (List Bool)
  exhausted : List (List Bool)
deriving DecidableEq, Repr

/-- Explores a node, of which the given number of variables have no value yet. -/
def explore (clauses : List Clause) : (left : Nat) → (node : List Bool) → Exploration
  | 0, node =>
    if (Assignment.ofList node).refutes clauses then ⟨none, [], []⟩ else ⟨some node, [], []⟩
  | left + 1, node =>
    if (Assignment.ofList node).refutes clauses then ⟨none, [], []⟩
    else if (Assignment.ofList node).satisfies clauses then ⟨some node, [], []⟩
    else
      let yes := explore clauses left (node ++ [true])
      match yes.found with
      | some good => ⟨some good, (node ++ [true]) :: yes.entered, yes.exhausted⟩
      | none =>
        let no := explore clauses left (node ++ [false])
        { found := no.found
          entered := (node ++ [true]) :: yes.entered ++ (node ++ [false]) :: no.entered
          exhausted := yes.exhausted ++ no.exhausted ++ if no.found.isNone then [node] else [] }

/-- The counts of an exploration: nodes entered, those of them at which a clause is false, and nodes both
of whose branches failed. -/
def Exploration.effort (clauses : List Clause) (x : Exploration) : Effort :=
  { decisions := x.entered.length
    conflicts := x.entered.countP fun node => (Assignment.ofList node).refutes clauses
    backtracks := x.exhausted.length }

/-- The result that an exploration of a formula with the given number of variables stands for. Variables
without a value are false in the model. -/
def Exploration.result (clauses : List Clause) (numVars : Nat) (x : Exploration) : Result :=
  { verdict :=
      match x.found with
      | some node => .sat (node ++ List.replicate (numVars - node.length) false).toArray
      | none => .unsat
    effort := x.effort clauses }

variable {clauses : List Clause} {left : Nat} {node good : List Bool}

/-- Nothing is tried below a node that makes a clause false. -/
theorem explore_of_refutes (h : (Assignment.ofList node).refutes clauses = true) :
    explore clauses left node = ⟨none, [], []⟩ := by
  cases left <;> simp [explore, h]

/-- Nor is there below a node that makes all clauses true, which is found. -/
theorem explore_of_satisfies (h : (Assignment.ofList node).satisfies clauses = true) :
    explore clauses left node = ⟨some node, [], []⟩ := by
  have hsound := Assignment.refutes_eq_false_of_satisfies h
  cases left <;> simp [explore, h, hsound]

/-! ### Nothing found -/

/-- A longer list of values than a node continues one of its two branches. -/
theorem prefix_branch {values : List Bool} (h : node <+: values) (hlt : node.length < values.length) :
    node ++ [true] <+: values ∨ node ++ [false] <+: values := by
  obtain ⟨rest, rfl⟩ := h
  cases rest with
  | nil => simp at hlt
  | cons value rest =>
    have hbranch : node ++ [value] <+: node ++ value :: rest := ⟨rest, by simp⟩
    cases value with
    | true => exact Or.inl hbranch
    | false => exact Or.inr hbranch

/-- If nothing was found below a node, every continuation of it makes a clause false. -/
theorem explore_none (h : (explore clauses left node).found = none) {values : List Bool}
    (hnode : node <+: values) (hlength : values.length = node.length + left) :
    (Assignment.ofList values).refutes clauses = true := by
  induction left generalizing node with
  | zero =>
    have hrefutes : (Assignment.ofList node).refutes clauses = true := by
      by_contra hsound
      simp [explore, hsound] at h
    exact Assignment.refutes_of_extends (Assignment.extends_ofList hnode) hrefutes
  | succ left ih =>
    -- If the node is not refuted itself, both its branches are explored, and the values lie below one of
    -- them.
    by_cases hrefutes : (Assignment.ofList node).refutes clauses = true
    · exact Assignment.refutes_of_extends (Assignment.extends_ofList hnode) hrefutes
    · by_cases hsatisfies : (Assignment.ofList node).satisfies clauses = true
      · simp [explore_of_satisfies hsatisfies] at h
      · rw [explore, if_neg hrefutes, if_neg hsatisfies] at h
        cases hyes : (explore clauses left (node ++ [true])).found with
        | some good => simp [hyes] at h
        | none =>
          simp only [hyes] at h
          rcases prefix_branch hnode (by omega) with hbranch | hbranch
          · exact ih hyes hbranch (by simp [hlength]; omega)
          · exact ih h hbranch (by simp [hlength]; omega)

/-! ### A node found -/

/-- A node, padded with true values to the given length. -/
def filled (length : Nat) (node : List Bool) : List Bool :=
  node ++ List.replicate (length - node.length) true

/-- Filling up a node gives it the length that is asked for. -/
theorem length_filled {length : Nat} (h : node.length ≤ length) :
    (filled length node).length = length := by
  simp only [filled, List.length_append, List.length_replicate]
  omega

/-- What is found below `node` when `length` variables have values at the end. -/
structure Found (clauses : List Clause) (length : Nat) (node good : List Bool) : Prop where
  below : node <+: good
  length_le : good.length ≤ length
  /-- The search stopped because every clause was true or no variable was left. -/
  stopped : (Assignment.ofList good).satisfies clauses = true ∨ good.length = length
  /-- It did not stop before. -/
  unfinished : ∀ between, node <+: between → between <+: good → between ≠ good →
    (Assignment.ofList between).satisfies clauses = false
  /-- No clause is false when the other variables are true. -/
  sound : (Assignment.ofList (filled length good)).refutes clauses = false
  /-- The other continuations without a false clause come later. -/
  first : ∀ values, node <+: values → values.length = length →
    (Assignment.ofList values).refutes clauses = false →
    values = filled length good ∨ Earlier (filled length good) values

/-- A node that is good itself. -/
theorem found_self {length : Nat} (hlength : node.length ≤ length)
    (hsound : (Assignment.ofList node).refutes clauses = false)
    (hstop : (Assignment.ofList node).satisfies clauses = true ∨ node.length = length) :
    Found clauses length node node where
  below := List.prefix_rfl
  length_le := hlength
  stopped := hstop
  unfinished between hle hge hne := absurd (hge.eq_of_length_le hle.length_le) hne
  sound := by
    rcases hstop with hsatisfies | rfl
    · exact Assignment.refutes_eq_false_of_satisfies
        (Assignment.satisfies_of_extends (Assignment.extends_ofList ⟨_, rfl⟩) hsatisfies)
    · simpa [filled] using hsound
  first values hvalues hlen _ := by
    obtain ⟨rest, rfl⟩ := hvalues
    rw [List.length_append] at hlen
    have hrest : rest.length = length - node.length := by omega
    rw [filled, ← hrest]
    -- Filled up with false, the values come first among all that the node begins.
    exact (eq_or_earlier_replicate rest).imp (congrArg _) fun h => List.Lex.append_left _ h node

/-- What is found in a branch of a node at which the search does not stop. Below the true branch nothing
has to be known about the false one; below the false branch the true one must have failed. -/
theorem Found.of_branch {length : Nat} {value : Bool}
    (h : Found clauses length (node ++ [value]) good)
    (hopen : (Assignment.ofList node).satisfies clauses = false)
    (hother : value = false → ∀ values, node ++ [true] <+: values → values.length = length →
      (Assignment.ofList values).refutes clauses = true) :
    Found clauses length node good where
  below := (List.prefix_append node [value]).trans h.below
  length_le := h.length_le
  stopped := h.stopped
  unfinished between hle hge hne := by
    -- A node on the way is the node itself, or lies in the branch.
    rcases Nat.eq_or_lt_of_le hle.length_le with heq | hlt
    · rw [← hle.eq_of_length heq]
      exact hopen
    · have hbranch : node ++ [value] <+: between :=
        List.prefix_of_prefix_length_le h.below hge (by rwa [List.length_append])
      exact h.unfinished between hbranch hge hne
  sound := h.sound
  first values hvalues hlen hsound := by
    have hgood : node ++ [value] <+: filled length good := h.below.trans (List.prefix_append _ _)
    have hlt : node.length < values.length := by
      have hle := h.below.length_le
      have hle' := h.length_le
      rw [List.length_append, List.length_singleton] at hle
      omega
    -- In the same branch the branch itself knows what is first. Across branches, true comes before
    -- false, and there is nothing left in a true branch that failed.
    rcases prefix_branch hvalues hlt with htrue | hfalse
    · cases value with
      | true => exact h.first values htrue hlen hsound
      | false => exact absurd (hother rfl values htrue hlen) (by simp [hsound])
    · cases value with
      | true => exact Or.inr (earlier_of_branches hgood hfalse)
      | false => exact h.first values hfalse hlen hsound

/-- What an exploration finds is the first good node below the one it begins at. -/
theorem explore_found (h : (explore clauses left node).found = some good) :
    Found clauses (node.length + left) node good := by
  induction left generalizing node with
  | zero =>
    by_cases hrefutes : (Assignment.ofList node).refutes clauses = true
    · simp [explore, hrefutes] at h
    · obtain rfl : node = good := by simpa [explore, hrefutes] using h
      exact found_self (Nat.le_refl _) (by simpa using hrefutes) (Or.inr rfl)
  | succ left ih =>
    by_cases hrefutes : (Assignment.ofList node).refutes clauses = true
    · simp [explore, hrefutes] at h
    by_cases hsatisfies : (Assignment.ofList node).satisfies clauses = true
    · obtain rfl : node = good := by simpa [explore_of_satisfies hsatisfies] using h
      exact found_self (Nat.le_add_right _ _) (by simpa using hrefutes) (Or.inl hsatisfies)
    have hlength : ∀ value : Bool, (node ++ [value]).length + left = node.length + (left + 1) := by
      intro value
      rw [List.length_append, List.length_singleton]
      omega
    have hopen : (Assignment.ofList node).satisfies clauses = false := by simpa using hsatisfies
    rw [explore, if_neg hrefutes, if_neg hsatisfies] at h
    -- What is found below the branch tried second comes after everything below the first one, where
    -- nothing was found.
    cases hyes : (explore clauses left (node ++ [true])).found with
    | some found =>
      obtain rfl : found = good := by simpa [hyes] using h
      exact (hlength true ▸ ih hyes).of_branch hopen (by simp)
    | none =>
      simp only [hyes] at h
      exact (hlength false ▸ ih h).of_branch hopen fun _ values hvalues hlen =>
        explore_none hyes hvalues (hlen.trans (hlength true).symm)

end Search
end VennDiagram
