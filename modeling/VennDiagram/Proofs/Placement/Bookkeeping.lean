import Mathlib.Algebra.BigOperators.Group.List.Basic
import Mathlib.Data.Nat.Choose.Basic
import VennDiagram.Proofs.Placement.Least
import VennDiagram.Proofs.Tables

/-!
# `VennDiagram.Proofs.Placement.Bookkeeping`: what an encoding adds, and what it says about it

An encoding puts variables and clauses into a formula that may already hold some, and keeps two kinds of
books. The tables say which variable is the selector of which candidate, and back. The counts say how
many clauses of each family there are. `Encoding.KeepsBooks` is what the books of an encoding have to
say, in terms of the candidates alone, and `encode_keepsBooks` is that they do, whatever formula the
encoder is handed.

* The tables: the selectors of an entity are those that `selectorsOf` gives back with its number
  (`mem_selectorsOf_iff`), and the selectors together are consecutive (`map_fst_selectorsOf`,
  `flatten_groupsFrom`), so that each is a key once.
* The counts: `length_pairs`, `length_flatMap_exactlyOneOf` and `length_conflicts` say how many clauses
  the three families have. `overlaps` counts overlapping candidates of different entities without the
  loops of the encoder.
-/

set_option autoImplicit false

namespace VennDiagram

namespace Encoding

/-! ### Tables -/

/-- The selectors of the entities of a kind. -/
def varsOf (e : Encoding) : EntityKind → List (List Nat)
  | .organization => e.orgVars
  | .label => e.labelVars

/-- The keys of a kind are its selectors, in order. -/
theorem map_fst_selectorsOf (kind : EntityKind) (groups : List (List Nat)) :
    (selectorsOf kind groups).map Prod.fst = groups.flatten := by
  have hgroup : ∀ p : List Nat × Nat,
      (p.1.zipIdx.map fun q => (q.1, (⟨kind, p.2, q.2⟩ : Selector))).map Prod.fst = p.1 := by
    intro p
    rw [List.map_map]
    exact List.zipIdx_map_fst 0 p.1
  calc (selectorsOf kind groups).map Prod.fst
      = groups.zipIdx.flatMap Prod.fst := by
        rw [selectorsOf, List.map_flatMap]
        exact List.flatMap_congr fun p _ => hgroup p
    _ = (groups.zipIdx.map Prod.fst).flatten := rfl
    _ = groups.flatten := by rw [List.zipIdx_map_fst]

/-- A selector stands for the candidate at whose place it is. -/
theorem mem_selectorsOf_iff {kind : EntityKind} {groups : List (List Nat)} {var : Nat} {s : Selector} :
    (var, s) ∈ selectorsOf kind groups ↔
      s.kind = kind ∧ ∃ group, groups[s.entity]? = some group ∧ group[s.candidate]? = some var := by
  constructor
  · intro h
    obtain ⟨⟨group, entity⟩, hentity, hmem⟩ := List.mem_flatMap.mp h
    obtain ⟨⟨v, candidate⟩, hcandidate, heq⟩ := List.mem_map.mp hmem
    obtain ⟨rfl, rfl⟩ := Prod.mk.inj heq
    exact ⟨rfl, group, List.mk_mem_zipIdx_iff_getElem?.mp hentity,
      List.mk_mem_zipIdx_iff_getElem?.mp hcandidate⟩
  · rintro ⟨rfl, group, hentity, hcandidate⟩
    refine List.mem_flatMap.mpr ⟨(group, s.entity), List.mk_mem_zipIdx_iff_getElem?.mpr hentity, ?_⟩
    exact List.mem_map.mpr ⟨(var, s.candidate), List.mk_mem_zipIdx_iff_getElem?.mpr hcandidate, rfl⟩

/-! ### Counts -/

/-- There are `n * (n - 1) / 2` pairs of `n` elements. -/
theorem length_pairs {β : Type} (xs : List β) :
    (pairs xs).length = xs.length * (xs.length - 1) / 2 := by
  induction xs with
  | nil => simp [pairs]
  | cons x rest ih =>
    rw [pairs, List.length_append, List.length_map, ih, List.length_cons, Nat.triangle_succ,
      Nat.add_comm]

/-- One clause for each group with a variable, and one for each pair of variables of a group. -/
theorem length_flatMap_exactlyOneOf (groups : List (List Nat)) :
    (groups.flatMap exactlyOneOf).length
      = groups.countP (!·.isEmpty) + (groups.flatMap pairs).length := by
  induction groups with
  | nil => rfl
  | cons group rest ih =>
    rw [List.flatMap_cons, List.flatMap_cons, List.length_append, List.length_append, ih]
    cases group with
    | nil => simp [exactlyOneOf, pairs]
    | cons v vs =>
      rw [List.countP_cons_of_pos rfl, exactlyOneOf, List.isEmpty_cons, if_neg Bool.false_ne_true,
        List.length_cons, List.length_map]
      omega

/-- The groups with a variable are as many as the lists with a candidate. -/
theorem countP_eq_of_lengths {β : Type} {groups : List (List Nat)} {candidates : List (List β)}
    (hlengths : groups.map List.length = candidates.map List.length) :
    groups.countP (!·.isEmpty) = candidates.countP (!·.isEmpty) := by
  have hcount : ∀ {γ : Type} (lists : List (List γ)),
      lists.countP (!·.isEmpty) = (lists.map List.length).countP (0 < ·) := by
    intro γ lists
    rw [List.countP_map]
    refine List.countP_congr fun list _ => ?_
    cases list <;> simp
  rw [hcount, hcount, hlengths]

/-- The pairs of all groups are counted by the sizes of the groups. -/
theorem length_flatMap_pairs (groups : List (List Nat)) :
    (groups.flatMap pairs).length = ((groups.map List.length).map fun n => n * (n - 1) / 2).sum := by
  rw [List.length_flatMap, List.map_map]
  exact congrArg List.sum (List.map_congr_left fun group _ => length_pairs group)

section
variable {β : Type} (overlap : β → β → Bool)

/-- All candidates, each with the number of its entity. The entities are numbered from `first` on. -/
def owned (first : Nat) (candidates : List (List β)) : List (Nat × β) :=
  (candidates.zipIdx first).flatMap fun (own, entity) => own.map (entity, ·)

/-- The number of pairs of candidates that overlap and belong to different entities, the one of the
earlier entity first. -/
def overlapsFrom (first : Nat) (candidates : List (List β)) : Nat :=
  ((owned first candidates).product (owned first candidates)).countP fun ((i, x), (j, y)) =>
    i < j && overlap x y

/-- The number of pairs of overlapping candidates of different entities. -/
def overlaps (candidates : List (List β)) : Nat := overlapsFrom overlap 0 candidates

/-- The candidates of the first entity come first, with its number. -/
theorem owned_cons (first : Nat) (own : List β) (rest : List (List β)) :
    owned first (own :: rest) = own.map (first, ·) ++ owned (first + 1) rest := rfl

/-- Without the numbers these are all candidates. -/
theorem map_snd_owned (first : Nat) (candidates : List (List β)) :
    (owned first candidates).map Prod.snd = candidates.flatten := by
  induction candidates generalizing first with
  | nil => rfl
  | cons own rest ih =>
    have hown : (own.map (first, ·)).map Prod.snd = own := by
      rw [List.map_map]
      exact List.map_id own
    rw [owned_cons, List.map_append, hown, ih, List.flatten_cons]

/-- The numbers begin at the first. -/
theorem le_of_mem_owned {first : Nat} {candidates : List (List β)} {p : Nat × β}
    (hp : p ∈ owned first candidates) : first ≤ p.1 := by
  obtain ⟨⟨own, entity⟩, hentity, hmem⟩ := List.mem_flatMap.mp hp
  obtain ⟨x, -, rfl⟩ := List.mem_map.mp hmem
  exact (List.mk_mem_zipIdx_iff_le_and_getElem?_sub.mp hentity).1

/-- Pairs counted element by element. -/
theorem countP_product {γ δ : Type} (p : γ × δ → Bool) (xs : List γ) (ys : List δ) :
    (xs.product ys).countP p = (xs.map fun x => ys.countP fun y => p (x, y)).sum := by
  show (xs.flatMap fun x => ys.map (Prod.mk x)).countP p = _
  rw [List.countP_flatMap]
  refine congrArg List.sum (List.map_congr_left fun x _ => ?_)
  exact List.countP_map

/-- The candidates of the first entity against those of all later ones, and the later ones among
themselves. -/
theorem overlapsFrom_cons (first : Nat) (own : List β) (rest : List (List β)) :
    overlapsFrom overlap first (own :: rest)
      = (own.map fun x => rest.flatten.countP (overlap x)).sum
        + overlapsFrom overlap (first + 1) rest := by
  -- With a candidate of the first group, those of later groups are counted if they overlap, and those of
  -- its own group never: they do not come later.
  have hfirst : ∀ x ∈ own,
      ((own.map (first, ·)) ++ owned (first + 1) rest).countP
          (fun p => decide (first < p.1) && overlap x p.2)
        = rest.flatten.countP (overlap x) := by
    intro x _
    have hsame : (own.map (first, ·)).countP (fun p => decide (first < p.1) && overlap x p.2) = 0 := by
      rw [List.countP_map, List.countP_eq_zero]
      simp
    have hlater : (owned (first + 1) rest).countP (fun p => decide (first < p.1) && overlap x p.2)
        = (owned (first + 1) rest).countP (overlap x ∘ Prod.snd) := by
      refine List.countP_congr fun p hp => ?_
      have hle := le_of_mem_owned hp
      have hlt : first < p.1 := by omega
      simp [hlt]
    rw [List.countP_append, hsame, Nat.zero_add, hlater, ← List.countP_map, map_snd_owned]
  -- With a candidate of a later group, those of the first group are never counted.
  have hrest : ∀ p ∈ owned (first + 1) rest,
      ((own.map (first, ·)) ++ owned (first + 1) rest).countP
          (fun q => decide (p.1 < q.1) && overlap p.2 q.2)
        = (owned (first + 1) rest).countP (fun q => decide (p.1 < q.1) && overlap p.2 q.2) := by
    intro p hp
    have hle := le_of_mem_owned hp
    have hnone : (own.map (first, ·)).countP (fun q => decide (p.1 < q.1) && overlap p.2 q.2) = 0 := by
      rw [List.countP_map, List.countP_eq_zero]
      intro x _
      have hnot : ¬ p.1 < first := by omega
      simp [hnot]
    rw [List.countP_append, hnone, Nat.zero_add]
  unfold overlapsFrom
  rw [countP_product, countP_product, owned_cons, List.map_append, List.sum_append, List.map_map]
  exact congrArg₂ (· + ·) (congrArg List.sum (List.map_congr_left hfirst))
    (congrArg List.sum (List.map_congr_left hrest))

/-- Equal numbers of different entities: the twos once, and each of the three pairs of ones. -/
example : overlaps (fun a b : Nat => a == b) [[1, 2], [2, 1], [1]] = 4 := by decide

/-- Two lists against each other, summed up either way. -/
theorem sum_sum_countP (own : List β) (others : List (List β)) :
    (others.map fun other => (own.map fun x => other.countP (overlap x)).sum).sum
      = (own.map fun x => others.flatten.countP (overlap x)).sum := by
  induction others with
  | nil => simp
  | cons other rest ih =>
    rw [List.map_cons, List.sum_cons, ih, ← List.sum_map_add]
    exact congrArg List.sum (List.map_congr_left fun x _ => by
      rw [List.flatten_cons, List.countP_append])

/-- The conflict clauses of two entities. -/
theorem length_conflicts_pair (first second : List (Nat × β)) :
    (first.flatMap fun (v, a) =>
        second.filterMap fun (w, b) => if overlap a b then some (notBoth v w) else none).length
      = ((first.map Prod.snd).map fun a => (second.map Prod.snd).countP (overlap a)).sum := by
  rw [List.length_flatMap, List.map_map]
  refine congrArg List.sum (List.map_congr_left fun p _ => ?_)
  rw [List.length_filterMap_eq_countP, Function.comp_apply, List.countP_map]
  refine List.countP_congr fun q _ => ?_
  show (if overlap p.2 q.2 then some (notBoth p.1 q.1) else none).isSome = true
    ↔ overlap p.2 q.2 = true
  split <;> simp [*]

/-- The conflict clauses of the first entity with each later one, and those of the later ones. -/
theorem length_conflicts_cons (entity : List (Nat × β)) (rest : List (List (Nat × β))) :
    (conflicts overlap (entity :: rest)).length
      = (rest.map fun other =>
            ((entity.map Prod.snd).map fun a => (other.map Prod.snd).countP (overlap a)).sum).sum
        + (conflicts overlap rest).length := by
  rw [conflicts, pairs, List.flatMap_append, List.length_append, List.length_flatMap, List.map_map]
  refine congrArg (· + _) (congrArg List.sum (List.map_congr_left fun other _ => ?_))
  exact length_conflicts_pair overlap entity other

/-- There is a conflict clause for each pair of overlapping candidates of different entities. -/
theorem length_conflicts (first : Nat) (entities : List (List (Nat × β))) :
    (conflicts overlap entities).length
      = overlapsFrom overlap first (entities.map (List.map Prod.snd)) := by
  induction entities generalizing first with
  | nil => rfl
  | cons entity rest ih =>
    rw [length_conflicts_cons, List.map_cons, overlapsFrom_cons, ← ih (first + 1),
      ← sum_sum_countP, List.map_map]
    rfl

/-- The candidates of groups that are as long as the lists of candidates. -/
theorem map_snd_zipWith_zip {groups : List (List Nat)} {candidates : List (List β)}
    (hlengths : groups.map List.length = candidates.map List.length) :
    (List.zipWith List.zip groups candidates).map (List.map Prod.snd) = candidates := by
  induction groups generalizing candidates with
  | nil =>
    obtain rfl : candidates = [] := List.map_eq_nil_iff.mp hlengths.symm
    rfl
  | cons group rest ih =>
    cases candidates with
    | nil => exact nomatch hlengths
    | cons own others =>
      obtain ⟨hfirst, hrest⟩ := List.cons.inj hlengths
      show (group.zip own).map Prod.snd :: _ = _
      rw [List.map_snd_zip hfirst.ge, ih hrest]

/-- There is a conflict clause for each pair of overlapping candidates, whatever the selectors are. -/
theorem length_conflicts_zip {groups : List (List Nat)} {candidates : List (List β)}
    (hlengths : groups.map List.length = candidates.map List.length) :
    (conflicts overlap (List.zipWith List.zip groups candidates)).length
      = overlaps overlap candidates := by
  rw [length_conflicts overlap 0, map_snd_zipWith_zip hlengths, overlaps]

end

/-! ### The books -/

section
variable {α : Type} [Scalar α]

/-- The books of an encoding that was added to the formula `start` say what was added.

The formula has the clauses it had, then one clause for each entity with candidates, one for each pair of
candidates of an entity and one for each pair of overlapping candidates of different organizations or
different labels. Labels that overlap circles are counted and add no clause. The new clauses name new
variables only. There is one new variable for each candidate, organizations first, in order of entity
and candidate, and the table of selectors has the new variables for keys and gives back the candidate at
whose place a variable is. -/
structure KeepsBooks (start : Formula) (rules : Rules α) (circles : List (Circle α))
    (dots : List (List (DotCandidate α))) (labels : List (List (LabelCandidate α))) (e : Encoding) :
    Prop where
  old_clauses : start.clauses <+: e.formula.clauses
  new_clauses : ∀ c ∈ e.formula.clauses.drop start.clauses.length, ∀ l ∈ c,
    l.var ∈ List.range' (start.numVars + 1) (dots.flatten.length + labels.flatten.length)
  length_clauses : e.formula.clauses.length = start.clauses.length + (e.counts.exactlyOne
    + e.counts.atMostOne + e.counts.orgConflict + e.counts.labelConflict)
  numVars_eq : e.formula.numVars = start.numVars + (dots.flatten.length + labels.flatten.length)
  vars_eq : (e.orgVars ++ e.labelVars).flatten
    = List.range' (start.numVars + 1) (dots.flatten.length + labels.flatten.length)
  org_lengths : e.orgVars.map List.length = dots.map List.length
  label_lengths : e.labelVars.map List.length = labels.map List.length
  keys_eq : e.selectors.map Prod.fst
    = List.range' (start.numVars + 1) (dots.flatten.length + labels.flatten.length)
  lookup_iff : ∀ (var : Nat) (s : Selector), e.selectors.lookup var = some s ↔
    ∃ group, (e.varsOf s.kind)[s.entity]? = some group ∧ group[s.candidate]? = some var
  exactlyOne_eq : e.counts.exactlyOne = dots.countP (!·.isEmpty) + labels.countP (!·.isEmpty)
  atMostOne_eq : e.counts.atMostOne
    = ((dots.map List.length ++ labels.map List.length).map fun n => n * (n - 1) / 2).sum
  orgConflict_eq : e.counts.orgConflict = overlaps (dotsOverlap rules) dots
  labelConflict_eq : e.counts.labelConflict = overlaps (labelsConflict rules) (named circles labels)

/-- The table of an encoding whose selectors are all different gives back the candidate of each. -/
theorem lookup_selectorsOf_iff {e : Encoding}
    (hselectors : e.selectors = selectorsOf .organization e.orgVars ++ selectorsOf .label e.labelVars)
    (hkeys : (e.selectors.map Prod.fst).Nodup) (var : Nat) (s : Selector) :
    e.selectors.lookup var = some s ↔
      ∃ group, (e.varsOf s.kind)[s.entity]? = some group ∧ group[s.candidate]? = some var := by
  rw [lookup_eq_some_iff_mem hkeys, hselectors, List.mem_append, mem_selectorsOf_iff,
    mem_selectorsOf_iff]
  cases hkind : s.kind with
  | organization => simp [varsOf]
  | label => simp [varsOf]

/-- With a list of labels for each circle, the encoder keeps its books, whatever formula it adds to. -/
theorem encode_keepsBooks (start : Formula) (rules : Rules α) (circles : List (Circle α))
    (dots : List (List (DotCandidate α))) (labels : List (List (LabelCandidate α)))
    (hlabels : labels.length = circles.length) :
    ∃ e, encode start rules circles dots labels = .ok e ∧
      e.KeepsBooks start rules circles dots labels := by
  rw [encode, lacksCircle_eq_false hlabels, if_neg Bool.false_ne_true]
  refine ⟨_, rfl, ?_⟩
  set orgVars := groupsFrom (start.numVars + 1) (dots.map List.length)
  set labelVars := groupsFrom (start.numVars + dots.flatten.length + 1) (labels.map List.length)
  have horg : orgVars.map List.length = dots.map List.length := map_length_groupsFrom _ _
  have hlabel : labelVars.map List.length = labels.map List.length := map_length_groupsFrom _ _
  have hnamed : labelVars.map List.length = (named circles labels).map List.length := by
    rw [hlabel, map_length_named]
  -- The groups are numbered one after the other from the first free variable, so taken together they are
  -- the new variables in order, and each is the key of its selector.
  have hvars : (orgVars ++ labelVars).flatten
      = List.range' (start.numVars + 1) (dots.flatten.length + labels.flatten.length) :=
    flatten_groupsFrom_append _ _ _
  have hkeys : (selectorsOf .organization orgVars ++ selectorsOf .label labelVars).map Prod.fst
      = List.range' (start.numVars + 1) (dots.flatten.length + labels.flatten.length) := by
    rw [List.map_append, map_fst_selectorsOf, map_fst_selectorsOf, ← List.flatten_append, hvars]
  constructor
  case old_clauses =>
    rw [List.append_assoc, List.append_assoc]
    exact List.prefix_append _ _
  case new_clauses =>
    rw [List.append_assoc, List.append_assoc, List.drop_left, ← List.append_assoc]
    intro c hc l hl
    rw [← hvars]
    exact List.mem_flatten.mpr (exists_group_of_mem hc hl)
  case length_clauses =>
    simp only [List.length_append, length_flatMap_exactlyOneOf, Nat.add_assoc]
  case numVars_eq => exact Nat.add_assoc _ _ _
  case vars_eq => exact hvars
  case org_lengths => exact horg
  case label_lengths => exact hlabel
  case keys_eq => exact hkeys
  case lookup_iff => exact lookup_selectorsOf_iff rfl (hkeys ▸ List.nodup_range')
  case exactlyOne_eq =>
    show (orgVars ++ labelVars).countP (!·.isEmpty) = _
    rw [List.countP_append, countP_eq_of_lengths horg, countP_eq_of_lengths hlabel]
  case atMostOne_eq =>
    show ((orgVars ++ labelVars).flatMap pairs).length = _
    rw [length_flatMap_pairs, List.map_append, horg, hlabel]
  case orgConflict_eq => exact length_conflicts_zip (dotsOverlap rules) horg
  case labelConflict_eq => exact length_conflicts_zip (labelsConflict rules) hnamed

end

/-- Two organizations that can be too close and a circle with two places for its label, added to a
formula with two variables. -/
theorem encode_keepsBooks_two_dots :
    let start : Formula := ⟨2, [[.no 1, .yes 2]]⟩
    let circles : List (Circle Float) := [⟨0, "A", "red", 0, 5000, 100⟩]
    let dots : List (List (DotCandidate Float)) := [[⟨0, 0, 1⟩, ⟨1000, 0, 1⟩], [⟨10, 0, 1⟩, ⟨0, 10, 1⟩]]
    let labels : List (List (LabelCandidate Float)) := [[⟨100, 5000, 0⟩, ⟨-100, 5000, 180⟩]]
    labels.length = circles.length ∧
      ∃ e, encode start Rules.standard circles dots labels = .ok e ∧
        e.KeepsBooks start Rules.standard circles dots labels ∧
        e.formula.numVars = 8 ∧ e.selectors.map Prod.fst = [3, 4, 5, 6, 7, 8] ∧
        e.counts.exactlyOne = 3 ∧ e.counts.atMostOne = 3 := by
  intro start circles dots labels
  obtain ⟨e, hencode, h⟩ := encode_keepsBooks start Rules.standard circles dots labels rfl
  exact ⟨rfl, e, hencode, h, h.numVars_eq, h.keys_eq, h.exactlyOne_eq, h.atMostOne_eq⟩

end Encoding
end VennDiagram
