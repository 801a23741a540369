import Mathlib.Data.List.GetD
import VennDiagram.Proofs.Formula.Closed
import VennDiagram.Proofs.Placement.Checked
import VennDiagram.Proofs.Placement.Renumbering

/-!
# `VennDiagram.Proofs.Placement.Building`: an encoding built step by step

An encoding is built in loops that change what is there: a loop over the candidates that allocates one
selector after another and notes what it stands for, loops that add one clause at a time and count it,
and a loop that counts candidates and adds nothing. `Checked.encode` is these loops, with the selectors
looked up by index and every clause checked before it is added. `encode` instead says what comes out: the
groups of consecutive variables, the clauses of each family, and how many there are.

Both are the same on every input (`Checked.encode_eq`). A program that only adds clauses and counts is
described by the clauses and the families it counts, `Grows`, and a loop of such programs by those of its
rounds in order (`Grows.forM`), so that each loop is matched with one family of clauses:

* `allocateAll_eq`: the variables come in consecutive groups, whatever there was before.
* `grows_chooseAll`: the clauses that one candidate of each entity is taken.
* `grows_keepApart`: the clauses that no two entities take candidates that overlap, if every candidate
  can be described. The candidates for a label are described by the circle at its index, and it is the
  first two labels without two circles where this fails (`faults_keepApart`).
* `grows_countOverlaps`: the candidates that are counted and forbid nothing.
-/

set_option autoImplicit false

namespace VennDiagram

namespace Checked

open Encoding (groupsFrom selectorsOf exactlyOneOf someOf notBoth)

/-! ### What is built -/

/-- What is counted. -/
inductive Family where
  | exactlyOne
  | atMostOne
  | orgConflict
  | labelConflict
  | labelCircleOverlap
deriving DecidableEq

/-- The counts with one more of a family. -/
def increase (n : ClauseCounts) : Family → ClauseCounts
  | .exactlyOne => { n with exactlyOne := n.exactlyOne + 1 }
  | .atMostOne => { n with atMostOne := n.atMostOne + 1 }
  | .orgConflict => { n with orgConflict := n.orgConflict + 1 }
  | .labelConflict => { n with labelConflict := n.labelConflict + 1 }
  | .labelCircleOverlap => { n with labelCircleOverlaps := n.labelCircleOverlaps + 1 }

/-- The formula so far, what its selectors stand for, and what has been counted. -/
structure Build where
  formula : Formula
  selectors : List (Nat × Selector)
  counts : ClauseCounts

/-- Nothing is built yet on a formula. -/
def Build.on (start : Formula) : Build := ⟨start, [], ⟨0, 0, 0, 0, 0⟩⟩

/-- A step that changes what is built, or cannot be taken. -/
abbrev Builder : Type → Type := StateT Build (Except Fault)

/-- A fresh variable that stands for a candidate. -/
def allocate (s : Selector) : Builder Nat := do
  let b ← get
  let (var, formula) := b.formula.allocate
  set { b with formula, selectors := b.selectors ++ [(var, s)] }
  return var

/-- A fresh variable for each candidate of an entity. -/
def allocateGroup (kind : EntityKind) (entity size : Nat) : Builder (List Nat) :=
  (List.range size).mapM fun candidate => allocate ⟨kind, entity, candidate⟩

/-- A fresh variable for each candidate of each entity of a kind. -/
def allocateAll {β : Type} (kind : EntityKind) (candidates : List (List β)) :
    Builder (List (List Nat)) :=
  candidates.zipIdx.mapM fun (own, entity) => allocateGroup kind entity own.length

/-- One more clause, which may be refused. -/
def addClause (c : Clause) : Builder Unit := do
  let b ← get
  let formula ← (b.formula.addMembers (c.map fun l => .int l.toInt)).mapError Fault.clause
  set { b with formula }

/-- One more of a family. -/
def count (family : Family) : Builder Unit :=
  modify fun b => { b with counts := increase b.counts family }

/-- One more clause of a family. -/
def addOf (family : Family) (c : Clause) : Builder Unit := do
  addClause c
  count family

/-- The clauses that exactly one selector of a group is true, unless the group is empty. -/
def chooseOne (group : List Nat) : Builder Unit :=
  if group.isEmpty then return ()
  else do
    addOf .exactlyOne (someOf group)
    (pairs group).forM fun (v, w) => addOf .atMostOne (notBoth v w)

/-- The clauses that one candidate of each entity is taken. -/
def chooseAll (groups : List (List Nat)) : Builder Unit := groups.forM chooseOne

section
variable {β γ : Type}

/-- The selector of a candidate of an entity. -/
def selector (groups : List (List Nat)) (i k : Nat) : Except Fault Nat := do
  let group ← elementAt groups i
  elementAt group k

/-- The clauses that keep two entities from taking candidates that overlap. -/
def forbidOverlaps (family : Family) (overlap : γ → γ → Bool) (groups : List (List Nat)) (i j : Nat)
    (first second : List γ) : Builder Unit :=
  first.zipIdx.forM fun (a, p) =>
    second.zipIdx.forM fun (b, q) =>
      if overlap a b then do
        let v ← selector groups i p
        let w ← selector groups j q
        addOf family (notBoth v w)
      else return ()

/-- The clauses for the entities at two indices. How the candidates of an entity are described is looked
up before the candidates are. -/
def keepTwoApart (family : Family) (overlap : γ → γ → Bool) (describe : Nat → Except Fault (β → γ))
    (groups : List (List Nat)) (candidates : List (List β)) (i j : Nat) : Builder Unit := do
  let describeFirst ← describe i
  let describeSecond ← describe j
  let first ← elementAt candidates i
  let second ← elementAt candidates j
  forbidOverlaps family overlap groups i j (first.map describeFirst) (second.map describeSecond)

/-- The clauses that keep every two entities from taking candidates that overlap. -/
def keepApart (family : Family) (overlap : γ → γ → Bool) (describe : Nat → Except Fault (β → γ))
    (groups : List (List Nat)) (candidates : List (List β)) : Builder Unit :=
  (pairs (List.range candidates.length)).forM fun (i, j) =>
    keepTwoApart family overlap describe groups candidates i j

end

section
variable {α : Type} [Scalar α]

/-- What the candidates for the label of a circle stand for: its text at a place. -/
def labelled (circles : List (Circle α)) (i : Nat) :
    Except Fault (LabelCandidate α → String × LabelCandidate α) := do
  let c ← elementAt circles i
  return (c.name, ·)

/-- A candidate for the label of a circle overlaps some circle. The circle of the label is looked up for
each circle it is held against. -/
def overlapsCircle (rules : Rules α) (circles : List (Circle α)) (i : Nat) (l : LabelCandidate α) :
    Except Fault Bool :=
  circles.anyM fun other => do
    let own ← elementAt circles i
    return labelOverlapsCircle rules own.name l.x l.y other

/-- Counts the candidates for labels that overlap some circle. -/
def countOverlaps (rules : Rules α) (circles : List (Circle α)) (labels : List (List (LabelCandidate α))) :
    Builder Unit :=
  labels.zipIdx.forM fun (candidates, i) =>
    candidates.forM fun l => do
      let overlaps ← overlapsCircle rules circles i l
      if overlaps then count .labelCircleOverlap else return ()

/-- All clauses, and what is only counted. -/
def constrain (rules : Rules α) (circles : List (Circle α)) (dots : List (List (DotCandidate α)))
    (labels : List (List (LabelCandidate α))) (orgVars labelVars : List (List Nat)) : Builder Unit := do
  chooseAll (orgVars ++ labelVars)
  keepApart .orgConflict (Encoding.dotsOverlap rules) (fun _ => return id) orgVars dots
  keepApart .labelConflict (Encoding.labelsConflict rules) (labelled circles) labelVars labels
  countOverlaps rules circles labels

/-- Selectors first, then the clauses. The selectors of the organizations and of the labels are kept. -/
def build (rules : Rules α) (circles : List (Circle α)) (dots : List (List (DotCandidate α)))
    (labels : List (List (LabelCandidate α))) : Builder (List (List Nat) × List (List Nat)) := do
  let orgVars ← allocateAll .organization dots
  let labelVars ← allocateAll .label labels
  constrain rules circles dots labels orgVars labelVars
  return (orgVars, labelVars)

/-- The encoding that is built from a formula. -/
def encode (start : Formula) (rules : Rules α) (circles : List (Circle α))
    (dots : List (List (DotCandidate α))) (labels : List (List (LabelCandidate α))) :
    Except Fault Encoding := do
  let ((orgVars, labelVars), b) ← build rules circles dots labels (.on start)
  return { formula := b.formula, orgVars, labelVars, selectors := b.selectors, counts := b.counts }

end

/-! ### Steps one after the other -/

section
variable {β γ : Type} {b b' : Build}

/-- After a step that can be taken comes the next. -/
theorem run_bind {p : Builder β} {k : β → Builder γ} {x : β} (h : p b = .ok (x, b')) :
    (p >>= k) b = k x b' := by
  show (p b >>= fun r => k r.1 r.2) = _
  rw [h, bind_ok]

/-- The step ends with a fault, whatever has been built. -/
def Faults (fault : Fault) (p : Builder β) : Prop := ∀ b, p b = .error fault

/-- Nothing comes after a fault. -/
theorem Faults.bind {fault : Fault} {p : Builder β} (h : Faults fault p) (k : β → Builder γ) :
    Faults fault (p >>= k) := by
  intro b
  show (p b >>= fun r => k r.1 r.2) = _
  rw [h b]
  rfl

/-- Nothing more is built after a look-up that fails. -/
theorem faults_lift {fault : Fault} {x : Except Fault β} (hx : x = .error fault) (k : β → Builder γ) :
    Faults fault ((liftM x : Builder β) >>= k) := by
  subst hx
  exact fun b => rfl

/-- A fault may come after a look-up that succeeds. -/
theorem Faults.lift {fault : Fault} {x : Except Fault β} {a : β} (hx : x = .ok a) {k : β → Builder γ}
    (hk : Faults fault (k a)) : Faults fault ((liftM x : Builder β) >>= k) := by
  subst hx
  exact hk

end

/-! ### Selectors -/

section
variable {β : Type}

/-- What is built with more variables, and what they stand for. -/
def Build.allocated (b : Build) (number : Nat) (selectors : List (Nat × Selector)) : Build :=
  { b with
    formula := { b.formula with numVars := b.formula.numVars + number }
    selectors := b.selectors ++ selectors }

/-- Allocating nothing notes nothing. -/
theorem Build.allocated_zero (b : Build) : b.allocated 0 [] = b := by
  simp only [Build.allocated, Nat.add_zero, List.append_nil]

/-- Allocating twice is allocating once, with both notes. -/
theorem Build.allocated_allocated (b : Build) (number number' : Nat)
    (selectors selectors' : List (Nat × Selector)) :
    (b.allocated number selectors).allocated number' selectors'
      = b.allocated (number + number') (selectors ++ selectors') := by
  simp only [Build.allocated, Nat.add_assoc, List.append_assoc]

/-- The candidates are numbered from `k` on, and the variables from the first that is free. -/
theorem mapM_allocate (kind : EntityKind) (entity k size : Nat) (b : Build) :
    ((List.range' k size).mapM fun candidate => allocate ⟨kind, entity, candidate⟩) b
      = .ok (List.range' (b.formula.numVars + 1) size,
          b.allocated size (((List.range' (b.formula.numVars + 1) size).zipIdx k).map
            fun (var, candidate) => (var, ⟨kind, entity, candidate⟩))) := by
  -- The induction is on the candidates that are still to come, whatever has been built before them.
  induction size generalizing k b with
  | zero =>
    show Except.ok ([], b) = .ok ([], b.allocated 0 [])
    rw [Build.allocated_zero]
  | succ size ih =>
    have hfirst : allocate ⟨kind, entity, k⟩ b
        = .ok (b.formula.numVars + 1, b.allocated 1 [(b.formula.numVars + 1, ⟨kind, entity, k⟩)]) := rfl
    rw [List.range'_succ, List.mapM_cons, run_bind hfirst, run_bind (ih (k + 1) _),
      Build.allocated_allocated, Nat.add_comm 1 size]
    rfl

/-- The candidates of an entity get consecutive variables. -/
theorem allocateGroup_eq (kind : EntityKind) (entity size : Nat) (b : Build) :
    allocateGroup kind entity size b
      = .ok (List.range' (b.formula.numVars + 1) size,
          b.allocated size ((List.range' (b.formula.numVars + 1) size).zipIdx.map
            fun (var, candidate) => (var, ⟨kind, entity, candidate⟩))) := by
  rw [allocateGroup, List.range_eq_range']
  exact mapM_allocate kind entity 0 size b

/-- The entities are numbered from `k` on. -/
theorem mapM_allocateGroup (kind : EntityKind) (candidates : List (List β)) (k : Nat) (b : Build) :
    ((candidates.zipIdx k).mapM fun (p : List β × Nat) => allocateGroup kind p.2 p.1.length) b
      = .ok (groupsFrom (b.formula.numVars + 1) (candidates.map List.length),
          b.allocated candidates.flatten.length
            (((groupsFrom (b.formula.numVars + 1) (candidates.map List.length)).zipIdx k).flatMap
              fun (p : List Nat × Nat) => p.1.zipIdx.map
                fun (var, candidate) => (var, ⟨kind, p.2, candidate⟩))) := by
  induction candidates generalizing k b with
  | nil =>
    show Except.ok ([], b) = .ok ([], b.allocated 0 [])
    rw [Build.allocated_zero]
  | cons own rest ih =>
    rw [List.zipIdx_cons, List.mapM_cons, run_bind (allocateGroup_eq kind k own.length b),
      run_bind (ih (k + 1) _), Build.allocated_allocated, List.flatten_cons, List.length_append,
      List.map_cons, groupsFrom, List.zipIdx_cons, List.flatMap_cons]
    simp only [Build.allocated, Nat.add_right_comm]
    rfl

/-- The groups of selectors are consecutive, and the table notes what each selector stands for. -/
theorem allocateAll_eq (kind : EntityKind) (candidates : List (List β)) (b : Build) :
    allocateAll kind candidates b
      = .ok (groupsFrom (b.formula.numVars + 1) (candidates.map List.length),
          b.allocated candidates.flatten.length
            (selectorsOf kind (groupsFrom (b.formula.numVars + 1) (candidates.map List.length)))) :=
  mapM_allocateGroup kind candidates 0 b

end

/-! ### Clauses and counts -/

/-- What is built with more clauses and more counted. -/
def Build.grown (b : Build) (cs : List Clause) (families : List Family) : Build :=
  { b with
    formula := b.formula.addAll cs
    counts := families.foldl increase b.counts }

/-- The step adds the clauses and counts the families, whatever has been built. -/
def Grows (p : Builder Unit) (cs : List Clause) (families : List Family) : Prop :=
  ∀ b, p b = .ok ((), b.grown cs families)

/-- The step adds clauses of one family and counts each. -/
def Adds (family : Family) (p : Builder Unit) (cs : List Clause) : Prop :=
  Grows p cs (cs.map fun _ => family)

section
variable {β γ : Type}

/-- Adding nothing leaves what is built. -/
theorem Build.grown_nil (b : Build) : b.grown [] [] = b := by
  simp only [Build.grown, Formula.addAll, List.append_nil, List.foldl_nil]

/-- Adding twice is adding once, in order. -/
theorem Build.grown_grown (b : Build) (cs cs' : List Clause) (families families' : List Family) :
    (b.grown cs families).grown cs' families' = b.grown (cs ++ cs') (families ++ families') := by
  simp only [Build.grown, Formula.addAll, List.append_assoc, List.foldl_append]

/-- Doing nothing adds and counts nothing. -/
theorem Grows.pure : Grows (return ()) [] [] := by
  intro b
  show Except.ok ((), b) = .ok ((), b.grown [] [])
  rw [Build.grown_nil]

/-- Two steps add and count what the first does and then what the second does. -/
theorem Grows.seq {p q : Builder Unit} {cs cs' : List Clause} {families families' : List Family}
    (hp : Grows p cs families) (hq : Grows q cs' families') :
    Grows (p >>= fun _ => q) (cs ++ cs') (families ++ families') := by
  intro b
  rw [run_bind (hp b), hq, Build.grown_grown]

/-- A look-up that succeeds changes nothing. -/
theorem Grows.lift {x : Except Fault β} {a : β} (hx : x = .ok a) {k : β → Builder Unit}
    {cs : List Clause} {families : List Family} (hk : Grows (k a) cs families) :
    Grows ((liftM x : Builder β) >>= k) cs families := by
  subst hx
  exact hk

/-- A loop adds and counts what its rounds add and count, in order. -/
theorem Grows.forM {xs : List β} {f : β → Builder Unit} {clauses : β → List Clause}
    {families : β → List Family} (h : ∀ x ∈ xs, Grows (f x) (clauses x) (families x)) :
    Grows (xs.forM f) (xs.flatMap clauses) (xs.flatMap families) := by
  induction xs with
  | nil => exact Grows.pure
  | cons x xs ih =>
    obtain ⟨hx, hxs⟩ := List.forall_mem_cons.mp h
    exact hx.seq (ih hxs)

/-- The rounds of a loop may all add clauses of one family. -/
theorem Adds.forM {family : Family} {xs : List β} {f : β → Builder Unit} {clauses : β → List Clause}
    (h : ∀ x ∈ xs, Adds family (f x) (clauses x)) : Adds family (xs.forM f) (xs.flatMap clauses) := by
  rw [Adds, List.map_flatMap]
  exact Grows.forM h

/-- A fault may come after a step that only adds and counts. -/
theorem Grows.faults {fault : Fault} {p : Builder Unit} {cs : List Clause} {families : List Family}
    (hp : Grows p cs families) {q : Builder Unit} (hq : Faults fault q) :
    Faults fault (p >>= fun _ => q) := by
  intro b
  rw [run_bind (hp b), hq]

/-- A loop ends with the fault of a round that follows on rounds without a fault. -/
theorem Faults.forM {fault : Fault} {before after : List β} {x : β} {f : β → Builder Unit}
    (hbefore : ∀ y ∈ before, ∃ cs families, Grows (f y) cs families) (hx : Faults fault (f x)) :
    Faults fault ((before ++ x :: after).forM f) := by
  induction before with
  | nil => exact hx.bind _
  | cons y before ih =>
    obtain ⟨⟨cs, families, hy⟩, hrest⟩ := List.forall_mem_cons.mp hbefore
    exact hy.faults (ih hrest)

/-- A clause of variables is not refused. -/
theorem adds_addOf (family : Family) {c : Clause} (hc : ∀ l ∈ c, 1 ≤ l.var) :
    Adds family (addOf family c) [c] := by
  intro b
  have hmembers : (b.formula.addMembers (c.map fun l => .int l.toInt)).mapError Fault.clause
      = .ok (b.formula.add c) := by
    rw [Dimacs.addMembers_toInt b.formula hc]
    rfl
  have hclause : addClause c b = .ok ((), { b with formula := b.formula.add c }) := by
    show ((liftM ((b.formula.addMembers (c.map fun l => .int l.toInt)).mapError Fault.clause) :
      Builder Formula) >>= fun formula => set { b with formula }) b = _
    rw [hmembers]
    rfl
  rw [addOf, run_bind hclause]
  rfl

/-- The clause against two variables names these two. -/
theorem one_le_var_of_mem_notBoth {v w : Nat} (hv : 1 ≤ v) (hw : 1 ≤ w) : ∀ l ∈ notBoth v w, 1 ≤ l.var := by
  simp [notBoth, Literal.no, hv, hw]

/-- How many of each family have been counted. -/
theorem foldl_increase (n : ClauseCounts) (families : List Family) :
    families.foldl increase n
      = { exactlyOne := n.exactlyOne + families.count .exactlyOne
          atMostOne := n.atMostOne + families.count .atMostOne
          orgConflict := n.orgConflict + families.count .orgConflict
          labelConflict := n.labelConflict + families.count .labelConflict
          labelCircleOverlaps := n.labelCircleOverlaps + families.count .labelCircleOverlap } := by
  induction families generalizing n with
  | nil => rfl
  | cons family rest ih =>
    rw [List.foldl_cons, ih]
    cases family <;> simp [increase, Nat.add_assoc, Nat.add_comm 1]

end

/-! ### One candidate of each entity -/

/-- What is counted for a group. -/
def choiceFamilies (group : List Nat) : List Family :=
  if group.isEmpty then [] else .exactlyOne :: (pairs group).map fun _ => .atMostOne

/-- A group that is not empty is asked for one true selector, and for no two. -/
theorem grows_chooseOne {group : List Nat} (hgroup : ∀ v ∈ group, 1 ≤ v) :
    Grows (chooseOne group) (exactlyOneOf group) (choiceFamilies group) := by
  rw [chooseOne, exactlyOneOf, choiceFamilies]
  by_cases hempty : group.isEmpty = true
  · rw [if_pos hempty, if_pos hempty, if_pos hempty]
    exact Grows.pure
  · rw [if_neg hempty, if_neg hempty, if_neg hempty]
    have hsome : ∀ l ∈ someOf group, 1 ≤ l.var := List.forall_mem_map.mpr hgroup
    have hpairs : ∀ p ∈ pairs group, Adds .atMostOne (addOf .atMostOne (notBoth p.1 p.2))
        [notBoth p.1 p.2] := by
      intro p hp
      obtain ⟨hv, hw⟩ := mem_of_mem_pairs hp
      exact adds_addOf _ (one_le_var_of_mem_notBoth (hgroup _ hv) (hgroup _ hw))
    have hloop := Adds.forM hpairs
    rw [← List.map_eq_flatMap] at hloop
    -- First the clause that asks for some candidate, then one for each pair.
    have hall := (adds_addOf .exactlyOne hsome).seq hloop
    rw [List.map_map] at hall
    exact hall

/-- So is each group in turn. -/
theorem grows_chooseAll {groups : List (List Nat)} (hgroups : ∀ group ∈ groups, ∀ v ∈ group, 1 ≤ v) :
    Grows (chooseAll groups) (groups.flatMap exactlyOneOf) (groups.flatMap choiceFamilies) :=
  Grows.forM fun group hgroup => grows_chooseOne (hgroups group hgroup)

/-- A group is counted once, and each pair of its selectors. -/
theorem count_choiceFamilies (groups : List (List Nat)) :
    (groups.flatMap choiceFamilies).count .exactlyOne = groups.countP (!·.isEmpty) ∧
      (groups.flatMap choiceFamilies).count .atMostOne = (groups.flatMap pairs).length := by
  induction groups with
  | nil => exact ⟨rfl, rfl⟩
  | cons group rest ih =>
    obtain ⟨hgroups, hpairs⟩ := ih
    rw [List.flatMap_cons, List.count_append, List.count_append, hgroups, hpairs, List.flatMap_cons,
      List.length_append]
    cases group with
    | nil => simp [choiceFamilies, pairs]
    | cons v rest => simp [choiceFamilies, List.map_const', List.count_replicate, Nat.add_comm 1]

/-- Nothing else is counted there. -/
theorem count_choiceFamilies_eq_zero (groups : List (List Nat)) {family : Family}
    (hexactlyOne : family ≠ .exactlyOne) (hatMostOne : family ≠ .atMostOne) :
    (groups.flatMap choiceFamilies).count family = 0 := by
  refine List.count_eq_zero.mpr fun hmem => ?_
  obtain ⟨group, -, hfamily⟩ := List.mem_flatMap.mp hmem
  rw [choiceFamilies] at hfamily
  split at hfamily
  · exact absurd hfamily List.not_mem_nil
  · rcases List.mem_cons.mp hfamily with heq | hrest
    · exact hexactlyOne heq
    · obtain ⟨_, -, heq⟩ := List.mem_map.mp hrest
      exact hatMostOne heq.symm

/-! ### No two candidates that overlap -/

section
variable {β γ : Type}

/-- An element that is there is no default. -/
theorem elementAt_getD {xs : List β} {i : Nat} (hi : i < xs.length) (default : β) :
    elementAt xs i = .ok (xs.getD i default) := by
  rw [elementAt_getElem hi, List.getD_eq_getElem _ _ hi]

/-- A list read beside another one is read by the numbers of the other. -/
theorem zip_eq_map_zipIdx {xs : List β} {ys : List γ} (hlength : xs.length = ys.length) (default : β) :
    xs.zip ys = ys.zipIdx.map fun (y, k) => (xs.getD k default, y) := by
  refine List.ext_getElem (by simp [hlength]) fun k hk hk' => ?_
  have hx : k < xs.length := by simp at hk; omega
  simp [hx]

/-- Groups that are as long as lists of candidates are so at every index, even beyond their ends. -/
theorem length_getD_eq {groups : List (List Nat)} {candidates : List (List β)}
    (hlengths : groups.map List.length = candidates.map List.length) (i : Nat) :
    (groups.getD i []).length = (candidates.getD i []).length := by
  have hgroups : (groups.map List.length).getD i 0 = (groups.getD i []).length :=
    List.getD_map groups [] List.length
  have hcandidates : (candidates.map List.length).getD i 0 = (candidates.getD i []).length :=
    List.getD_map candidates [] List.length
  rw [← hgroups, hlengths, hcandidates]

/-- The selector of a candidate is there, if its group and its number are. -/
theorem selector_eq {groups : List (List Nat)} {i k : Nat} (hi : i < groups.length)
    (hk : k < (groups.getD i []).length) :
    selector groups i k = .ok ((groups.getD i []).getD k 0) := by
  rw [selector, elementAt_getD hi [], bind_ok, elementAt_getD hk 0]

variable (family : Family) (overlap : γ → γ → Bool)

/-- Each candidate of one entity is held against each of the other, and a clause is added where they
overlap. -/
theorem adds_forbidOverlaps {groups : List (List Nat)} (hgroups : ∀ group ∈ groups, ∀ v ∈ group, 1 ≤ v)
    {i j : Nat} {first second : List γ} (hi : i < groups.length) (hj : j < groups.length)
    (hfirst : (groups.getD i []).length = first.length)
    (hsecond : (groups.getD j []).length = second.length) :
    Adds family (forbidOverlaps family overlap groups i j first second)
      (((groups.getD i []).zip first).flatMap fun (v, a) =>
        ((groups.getD j []).zip second).filterMap fun (w, b) =>
          if overlap a b then some (notBoth v w) else none) := by
  have hvar : ∀ {i k : Nat}, i < groups.length → k < (groups.getD i []).length →
      1 ≤ (groups.getD i []).getD k 0 := by
    intro i k hi hk
    rw [List.getD_eq_getElem _ _ hi] at hk ⊢
    rw [List.getD_eq_getElem _ _ hk]
    exact hgroups _ (List.getElem_mem hi) _ (List.getElem_mem hk)
  -- A candidate with its selector is a candidate with its number, by which the selector is looked up.
  rw [zip_eq_map_zipIdx hfirst 0, zip_eq_map_zipIdx hsecond 0, List.flatMap_map]
  refine Adds.forM fun (a, p) hp => ?_
  dsimp only
  rw [List.filterMap_map, List.filterMap_eq_flatMap_toList]
  refine Adds.forM fun (b, q) hq => ?_
  have hp : p < (groups.getD i []).length := hfirst ▸ List.snd_lt_of_mem_zipIdx hp
  have hq : q < (groups.getD j []).length := hsecond ▸ List.snd_lt_of_mem_zipIdx hq
  dsimp only [Function.comp_apply]
  split
  · have hclause := adds_addOf family (one_le_var_of_mem_notBoth (hvar hi hp) (hvar hj hq))
    exact Grows.lift (selector_eq hi hp) (Grows.lift (selector_eq hj hq) hclause)
  · exact Grows.pure

/-- The candidates of all entities with their selectors. -/
theorem zipWith_zip_eq_map {groups : List (List Nat)} {candidates : List (List β)}
    (hlength : groups.length = candidates.length) (description : Nat → β → γ) :
    List.zipWith List.zip groups (candidates.zipIdx.map fun (own, i) => own.map (description i))
      = (List.range candidates.length).map fun i =>
          (groups.getD i []).zip ((candidates.getD i []).map (description i)) := by
  refine List.ext_getElem (by simp [hlength]) fun i hi hi' => ?_
  have hgroup : i < groups.length := by simp at hi; omega
  have hown : i < candidates.length := by simp at hi; omega
  simp [hgroup, hown]

section
variable {describe : Nat → Except Fault (β → γ)} {description : Nat → β → γ} {groups : List (List Nat)}
  {candidates : List (List β)}

/-- Every index into the groups is one into the lists of candidates, which have the same lengths. -/
theorem adds_keepTwoApart (hgroups : ∀ group ∈ groups, ∀ v ∈ group, 1 ≤ v)
    (hlengths : groups.map List.length = candidates.map List.length) {i j : Nat}
    (hi : i < candidates.length) (hj : j < candidates.length) (hfirst : describe i = .ok (description i))
    (hsecond : describe j = .ok (description j)) :
    Adds family (keepTwoApart family overlap describe groups candidates i j)
      (((groups.getD i []).zip ((candidates.getD i []).map (description i))).flatMap fun (v, a) =>
        ((groups.getD j []).zip ((candidates.getD j []).map (description j))).filterMap fun (w, b) =>
          if overlap a b then some (notBoth v w) else none) := by
  have hlength := Encoding.length_eq_of_map_length hlengths
  have hsize : ∀ i, (groups.getD i []).length = ((candidates.getD i []).map (description i)).length := by
    intro i
    rw [List.length_map, length_getD_eq hlengths]
  refine Grows.lift hfirst (Grows.lift hsecond ?_)
  refine Grows.lift (elementAt_getD hi []) (Grows.lift (elementAt_getD hj []) ?_)
  exact adds_forbidOverlaps family overlap hgroups (hlength ▸ hi) (hlength ▸ hj) (hsize i) (hsize j)

/-- Two elements make a pair. -/
theorem two_le_length_of_mem_pairs {xs : List β} {p : β × β} (hp : p ∈ pairs xs) : 2 ≤ xs.length := by
  match xs with
  | [] => exact absurd hp List.not_mem_nil
  | [_] => exact absurd hp List.not_mem_nil
  | _ :: _ :: rest => simp

/-- If the candidates of any two entities can be described, the clauses for all of them are added. -/
theorem adds_keepApart (hgroups : ∀ group ∈ groups, ∀ v ∈ group, 1 ≤ v)
    (hlengths : groups.map List.length = candidates.map List.length)
    (hdescribe : 2 ≤ candidates.length → ∀ i < candidates.length, describe i = .ok (description i)) :
    Adds family (keepApart family overlap describe groups candidates)
      (Encoding.conflicts overlap (List.zipWith List.zip groups
        (candidates.zipIdx.map fun (own, i) => own.map (description i)))) := by
  rw [zipWith_zip_eq_map (Encoding.length_eq_of_map_length hlengths), Encoding.conflicts, pairs_map,
    List.flatMap_map]
  refine Adds.forM ?_
  rintro ⟨i, j⟩ hp
  have htwo := two_le_length_of_mem_pairs hp
  rw [List.length_range] at htwo
  obtain ⟨hi, hj⟩ := mem_of_mem_pairs hp
  rw [List.mem_range] at hi hj
  exact adds_keepTwoApart family overlap hgroups hlengths hi hj (hdescribe htwo i hi) (hdescribe htwo j hj)

/-- The indices before and after one that is not the first. -/
theorem range_eq_split {n m : Nat} (hm : m + 1 < n) :
    List.range n = 0 :: (List.range' 1 m ++ (m + 1) :: List.range' (m + 2) (n - (m + 2))) := by
  obtain ⟨rest, rfl⟩ := Nat.exists_eq_add_of_lt hm
  have hlength : m + 1 + rest + 1 = m + (rest + 1) + 1 := by omega
  have hrest : m + 1 + rest + 1 - (m + 2) = rest := by omega
  rw [hrest, hlength, List.range_eq_range', List.range'_succ, ← List.range'_append_1, List.range'_succ]
  simp only [Nat.zero_add, Nat.add_comm 1 m]

/-- The loop ends at the first entity whose candidates cannot be described, if there are two entities:
it is the one that comes second in the first pair it is in, unless it is the very first. -/
theorem faults_keepApart {fault : Fault} {m : Nat} (hgroups : ∀ group ∈ groups, ∀ v ∈ group, 1 ≤ v)
    (hlengths : groups.map List.length = candidates.map List.length) (htwo : 2 ≤ candidates.length)
    (hm : m < candidates.length) (hdescribe : ∀ i < m, describe i = .ok (description i))
    (hfault : describe m = .error fault) :
    Faults fault (keepApart family overlap describe groups candidates) := by
  rw [keepApart]
  -- The first entity is described for the first pair of all. Any other one is described when it is
  -- compared with the first one, and by then all those before it have been.
  cases m with
  | zero =>
    obtain ⟨r, hr⟩ := Nat.exists_eq_add_of_le' htwo
    have hbefore : ∀ p ∈ ([] : List (Nat × Nat)), ∃ cs families,
        Grows (keepTwoApart family overlap describe groups candidates p.1 p.2) cs families := nofun
    rw [hr, List.range_eq_range']
    exact Faults.forM hbefore (faults_lift hfault _)
  | succ m =>
    rw [range_eq_split hm, pairs, List.map_append, List.map_cons, List.append_assoc]
    refine Faults.forM ?_ (Faults.lift (hdescribe 0 (Nat.zero_lt_succ m)) (faults_lift hfault _))
    rintro p hp
    obtain ⟨j, hj, rfl⟩ := List.mem_map.mp hp
    rw [List.mem_range'_1] at hj
    exact ⟨_, _, adds_keepTwoApart family overlap hgroups hlengths (by omega) (by omega)
      (hdescribe 0 (Nat.zero_lt_succ m)) (hdescribe j (by omega))⟩

end

end

/-! ### Labels over circles -/

section
variable {α : Type}

/-- The text of a label, or nothing if there is no circle for it. -/
def textAt (circles : List (Circle α)) (i : Nat) : String := (circles[i]?.map Circle.name).getD ""

/-- A label with a circle has its text. -/
theorem labelled_eq {circles : List (Circle α)} {i : Nat} (hi : i < circles.length) :
    labelled circles i = .ok (textAt circles i, ·) := by
  rw [labelled, elementAt_getElem hi, textAt, List.getElem?_eq_getElem hi]
  rfl

variable [Scalar α] (rules : Rules α) {circles : List (Circle α)} {dots : List (List (DotCandidate α))}
  {labels : List (List (LabelCandidate α))}

/-- The circle of the label is looked up for each circle it is held against, and so not at all if there
is none. -/
theorem overlapsCircle_eq {i : Nat} (hi : circles = [] ∨ i < circles.length) (l : LabelCandidate α) :
    overlapsCircle rules circles i l
      = .ok (Encoding.overlapsSomeCircle rules circles (textAt circles i, l)) := by
  rcases hi with rfl | hi
  · rfl
  · simp only [overlapsCircle, elementAt_getElem hi, textAt, List.getElem?_eq_getElem hi, bind_ok]
    exact List.anyM_pure

/-- Counting one thing again and again is counting how often. -/
theorem flatMap_ite_eq_replicate {β γ : Type} (p : β → Bool) (x : γ) (xs : List β) :
    (xs.flatMap fun y => if p y then [x] else []) = List.replicate (xs.countP p) x := by
  induction xs with
  | nil => rfl
  | cons y ys ih =>
    rw [List.flatMap_cons, ih, List.countP_cons]
    split
    · rfl
    · rfl

/-- A candidate for a label is counted if it overlaps some circle. -/
theorem grows_countOverlap {i : Nat} (hi : circles = [] ∨ i < circles.length) (l : LabelCandidate α) :
    Grows (do if ← overlapsCircle rules circles i l then count .labelCircleOverlap else return ()) []
      (if Encoding.overlapsSomeCircle rules circles (textAt circles i, l) then [.labelCircleOverlap]
        else []) := by
  refine Grows.lift (overlapsCircle_eq rules hi l) ?_
  split
  · intro b
    simp only [Build.grown, Formula.addAll, List.append_nil]
    rfl
  · exact Grows.pure

omit [Scalar α] in
/-- The candidates with their texts are the candidates of the labels in order. -/
theorem flatMap_flatten_named {β : Type} (f : String × LabelCandidate α → List β) :
    (Encoding.named circles labels).flatten.flatMap f
      = labels.zipIdx.flatMap fun p => p.1.flatMap fun l => f (textAt circles p.2, l) := by
  rw [Encoding.named, List.flatten_eq_flatMap, List.flatMap_map, List.flatMap_assoc]
  refine List.flatMap_congr fun p _ => ?_
  show (p.1.map (textAt circles p.2, ·)).flatMap f = _
  rw [List.flatMap_map]

/-- The candidates for labels that overlap some circle are counted, and nothing is added. -/
theorem grows_countOverlaps (hcircles : circles = [] ∨ labels.length ≤ circles.length) :
    Grows (countOverlaps rules circles labels) []
      (List.replicate ((Encoding.named circles labels).flatten.countP
        (Encoding.overlapsSomeCircle rules circles)) .labelCircleOverlap) := by
  have hloop : Grows (countOverlaps rules circles labels)
      (labels.zipIdx.flatMap fun p => p.1.flatMap fun _ => [])
      (labels.zipIdx.flatMap fun p => p.1.flatMap fun l =>
        if Encoding.overlapsSomeCircle rules circles (textAt circles p.2, l) then
          [Family.labelCircleOverlap] else []) :=
    Grows.forM fun p hp => Grows.forM fun l _ =>
      grows_countOverlap rules (hcircles.imp_right (Nat.lt_of_lt_of_le (List.snd_lt_of_mem_zipIdx hp))) l
  -- No round adds a clause.
  have hclauses : (labels.zipIdx.flatMap fun p => p.1.flatMap fun _ => ([] : List Clause)) = [] := by
    simp
  rw [← flatMap_ite_eq_replicate, flatMap_flatten_named, ← hclauses]
  exact hloop

/-! ### The whole encoding -/

omit [Scalar α] in
/-- The text of a label is asked for that has no circle exactly if two labels are compared and there are
more labels than circles. -/
theorem lacksCircle_iff : Encoding.lacksCircle circles labels = true ↔
    2 ≤ labels.length ∧ circles.length < labels.length := by
  constructor
  · intro h
    rcases (Bool.or_eq_true _ _).mp h with hcompared | hheld
    · simpa using hcompared
    · obtain ⟨hcircles, hbeyond⟩ := (Bool.and_eq_true _ _).mp hheld
      obtain ⟨own, hown, -⟩ := List.any_eq_true.mp hbeyond
      have hdrop : 0 < labels.length - circles.length := by
        rw [← List.length_drop]
        exact List.length_pos_of_mem hown
      -- A label beyond the circles is held against them, so there is a circle, and it has a label before.
      have hcircle : circles.length ≠ 0 := by simpa using hcircles
      omega
  · rintro ⟨htwo, hlt⟩
    simp [Encoding.lacksCircle, htwo, hlt]

/-- The variables of groups are numbered from the first that is free. -/
theorem le_of_mem_groupsFrom {next : Nat} {sizes : List Nat} {group : List Nat}
    (hgroup : group ∈ groupsFrom next sizes) {v : Nat} (hv : v ∈ group) : next ≤ v := by
  induction sizes generalizing next with
  | nil => exact absurd hgroup List.not_mem_nil
  | cons size rest ih =>
    rcases List.mem_cons.mp hgroup with rfl | hrest
    · exact (List.mem_range'_1.mp hv).1
    · exact Nat.le_trans (Nat.le_add_right next size) (ih hrest)

/-- The clauses of the organizations ask for no circle. -/
theorem adds_keepDotsApart {groups : List (List Nat)} (hgroups : ∀ group ∈ groups, ∀ v ∈ group, 1 ≤ v)
    (hlengths : groups.map List.length = dots.map List.length) :
    Adds .orgConflict
      (keepApart .orgConflict (Encoding.dotsOverlap rules) (fun _ => return id) groups dots)
      (Encoding.conflicts (Encoding.dotsOverlap rules) (List.zipWith List.zip groups dots)) := by
  have hdescribe : 2 ≤ dots.length → ∀ i < dots.length,
      (return id : Except Fault (DotCandidate α → DotCandidate α)) = .ok id := fun _ _ _ => rfl
  have hall := adds_keepApart .orgConflict (Encoding.dotsOverlap rules) hgroups hlengths hdescribe
  simp only [List.map_id, List.zipIdx_map_fst] at hall
  exact hall

/-- What is counted for an encoding: its groups, its conflict clauses and its labels over circles. -/
def families (groups : List (List Nat)) (orgClauses labelClauses : List Clause) (overlaps : Nat) :
    List Family :=
  groups.flatMap choiceFamilies ++ (orgClauses.map (fun _ => .orgConflict)
    ++ (labelClauses.map (fun _ => .labelConflict) ++ List.replicate overlaps .labelCircleOverlap))

/-- The counts of an encoding are the numbers of its groups, of the pairs in them, and of its clauses. -/
theorem foldl_increase_families (groups : List (List Nat)) (orgClauses labelClauses : List Clause)
    (overlaps : Nat) :
    (families groups orgClauses labelClauses overlaps).foldl increase ⟨0, 0, 0, 0, 0⟩
      = { exactlyOne := groups.countP (!·.isEmpty)
          atMostOne := (groups.flatMap pairs).length
          orgConflict := orgClauses.length
          labelConflict := labelClauses.length
          labelCircleOverlaps := overlaps } := by
  obtain ⟨hexactlyOne, hatMostOne⟩ := count_choiceFamilies groups
  have hother : ∀ family, family ≠ .exactlyOne → family ≠ .atMostOne →
      (groups.flatMap choiceFamilies).count family = 0 := fun _ => count_choiceFamilies_eq_zero groups
  rw [foldl_increase, families]
  simp [hexactlyOne, hatMostOne, hother, List.map_const', List.count_replicate]

section
variable {orgVars labelVars : List (List Nat)}
  (hgroups : ∀ group ∈ orgVars ++ labelVars, ∀ v ∈ group, 1 ≤ v)
  (hdots : orgVars.map List.length = dots.map List.length)
  (hlabels : labelVars.map List.length = labels.map List.length)

include hgroups hdots hlabels

/-- With a circle for every label that is compared, all clauses are added, family by family. -/
theorem grows_constrain (hlacks : Encoding.lacksCircle circles labels = false) :
    Grows (constrain rules circles dots labels orgVars labelVars)
      ((orgVars ++ labelVars).flatMap exactlyOneOf
        ++ (Encoding.conflicts (Encoding.dotsOverlap rules) (List.zipWith List.zip orgVars dots)
          ++ (Encoding.conflicts (Encoding.labelsConflict rules)
            (List.zipWith List.zip labelVars (Encoding.named circles labels)) ++ [])))
      (families (orgVars ++ labelVars)
        (Encoding.conflicts (Encoding.dotsOverlap rules) (List.zipWith List.zip orgVars dots))
        (Encoding.conflicts (Encoding.labelsConflict rules)
          (List.zipWith List.zip labelVars (Encoding.named circles labels)))
        ((Encoding.named circles labels).flatten.countP (Encoding.overlapsSomeCircle rules circles))) := by
  obtain ⟨horgPos, hlabelPos⟩ := List.forall_mem_append.mp hgroups
  have hcompared : ¬ (2 ≤ labels.length ∧ circles.length < labels.length) := by
    rw [← lacksCircle_iff, hlacks]
    exact Bool.false_ne_true
  -- A circle is only looked up if there is a second label to compare the first one with.
  have hdescribe : 2 ≤ labels.length → ∀ i < labels.length,
      labelled circles i = .ok (textAt circles i, ·) := fun htwo i hi => labelled_eq (by omega)
  have hcircles : circles = [] ∨ labels.length ≤ circles.length := by
    rw [← List.length_eq_zero_iff]
    omega
  exact (grows_chooseAll hgroups).seq <| (adds_keepDotsApart rules horgPos hdots).seq <|
    (adds_keepApart .labelConflict (Encoding.labelsConflict rules) hlabelPos hlabels hdescribe).seq <|
      grows_countOverlaps rules hcircles

/-- The first label without a circle is the one whose index is the number of circles. -/
theorem faults_constrain (hlacks : Encoding.lacksCircle circles labels = true) :
    Faults (.noElement circles.length) (constrain rules circles dots labels orgVars labelVars) := by
  obtain ⟨horgPos, hlabelPos⟩ := List.forall_mem_append.mp hgroups
  obtain ⟨htwo, hlt⟩ := lacksCircle_iff.mp hlacks
  have hmissing : labelled circles circles.length = .error (.noElement circles.length) := by
    rw [labelled, elementAt, List.getElem?_eq_none (Nat.le_refl _)]
    rfl
  have hlabelFaults := faults_keepApart .labelConflict (Encoding.labelsConflict rules) hlabelPos hlabels
    htwo hlt (fun i hi => labelled_eq hi) hmissing
  exact (grows_chooseAll hgroups).faults <| (adds_keepDotsApart rules horgPos hdots).faults <|
    hlabelFaults.bind _

end

/-- The selectors come first, and the clauses are added to a formula that has them. -/
theorem build_eq (start : Formula) (circles : List (Circle α)) (dots : List (List (DotCandidate α)))
    (labels : List (List (LabelCandidate α))) :
    let orgVars := groupsFrom (start.numVars + 1) (dots.map List.length)
    let labelVars := groupsFrom (start.numVars + dots.flatten.length + 1) (labels.map List.length)
    build rules circles dots labels (.on start)
      = (constrain rules circles dots labels orgVars labelVars >>= fun _ => return (orgVars, labelVars))
          ((Build.on start).allocated (dots.flatten.length + labels.flatten.length)
            (selectorsOf .organization orgVars ++ selectorsOf .label labelVars)) := by
  intro orgVars labelVars
  rw [build, run_bind (allocateAll_eq _ _ _), run_bind (allocateAll_eq _ _ _),
    Build.allocated_allocated]
  rfl

/-- Building an encoding step by step gives the encoding, whatever it is built on. It fails exactly where
there is no encoding, and then it is the circle of a label that is missing. -/
theorem encode_eq (start : Formula) (circles : List (Circle α)) (dots : List (List (DotCandidate α)))
    (labels : List (List (LabelCandidate α))) :
    encode start rules circles dots labels
      = (VennDiagram.encode start rules circles dots labels).mapError
          fun _ => .noElement circles.length := by
  have hdots := Encoding.map_length_groupsFrom (start.numVars + 1) (dots.map List.length)
  have hlabels := Encoding.map_length_groupsFrom (start.numVars + dots.flatten.length + 1)
    (labels.map List.length)
  have hgroups : ∀ group ∈ groupsFrom (start.numVars + 1) (dots.map List.length)
        ++ groupsFrom (start.numVars + dots.flatten.length + 1) (labels.map List.length),
      ∀ v ∈ group, 1 ≤ v := by
    intro group hgroup v hv
    rcases List.mem_append.mp hgroup with horg | hlabel
    · exact Nat.le_trans (Nat.le_add_left 1 _) (le_of_mem_groupsFrom horg hv)
    · exact Nat.le_trans (Nat.le_add_left 1 _) (le_of_mem_groupsFrom hlabel hv)
  -- Either the groups and clauses are those of the closed form, or a label has no circle and both report
  -- the first one that is missing.
  rw [encode, build_eq, VennDiagram.encode]
  cases hlacks : Encoding.lacksCircle circles labels with
  | true =>
    rw [(faults_constrain rules hgroups hdots hlabels hlacks).bind]
    rfl
  | false =>
    rw [run_bind (grows_constrain rules hgroups hdots hlabels hlacks _)]
    simp only [Build.grown, Build.on, Build.allocated, foldl_increase_families, Formula.addAll,
      List.append_nil, List.nil_append, Bool.false_eq_true, if_false, Nat.add_assoc, List.append_assoc]
    rfl

end

end Checked
end VennDiagram
