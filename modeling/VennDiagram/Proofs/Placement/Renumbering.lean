import Mathlib.Data.List.Find
import VennDiagram.Proofs.Formula.Beside
import VennDiagram.Proofs.Placement.Least

/-!
# `VennDiagram.Proofs.Placement.Renumbering`: encoding into a formula that is already in use

A formula that is handed to the encoder may hold variables and clauses of its own. The selectors then get
later numbers, and the encoding is the one that starts from nothing, with its variables renumbered and
its formula beside the one that was there (`encode_eq_map`). Every stage of encoding commutes with
renumbering: the groups of selectors (`groupsFrom_add`), the clauses of a group (`exactlyOneOf_map_add`)
and the conflicts (`conflicts_map_add`).

So deciding gives the selectors the values they would have had, if what was there can be satisfied, and
decoding reads the same layout off them. If what was there cannot be satisfied, neither can the whole
(`encode_undisturbed`).
-/

set_option autoImplicit false

namespace VennDiagram

/-- The pairs of images are the images of the pairs. -/
theorem pairs_map {β γ : Type} (f : β → γ) (xs : List β) :
    pairs (xs.map f) = (pairs xs).map (Prod.map f f) := by
  induction xs with
  | nil => rfl
  | cons x xs ih =>
    rw [List.map_cons, pairs, pairs, ih, List.map_append, List.map_map, List.map_map]
    rfl

namespace Encoding

/-- Groups of variables that come `n` numbers later. -/
def shiftGroups (n : Nat) (groups : List (List Nat)) : List (List Nat) := groups.map (List.map (n + ·))

/-- The encoding with its variables after those of a formula, and its formula beside that one. -/
def after (start : Formula) (e : Encoding) : Encoding :=
  { formula := start.beside e.formula
    orgVars := shiftGroups start.numVars e.orgVars
    labelVars := shiftGroups start.numVars e.labelVars
    selectors := e.selectors.map fun (var, selector) => (start.numVars + var, selector)
    counts := e.counts }

/-! ### Encoding with later numbers -/

section
variable (n : Nat)

/-- Groups that begin later are the same groups, renumbered. -/
theorem groupsFrom_add (next : Nat) (sizes : List Nat) :
    groupsFrom (n + next) sizes = shiftGroups n (groupsFrom next sizes) := by
  induction sizes generalizing next with
  | nil => rfl
  | cons size rest ih =>
    rw [groupsFrom, groupsFrom, Nat.add_assoc, ih, shiftGroups, shiftGroups, List.map_cons,
      List.map_add_range']

/-- A renumbered selector stands for the same candidate. -/
theorem selectorsOf_shiftGroups (kind : EntityKind) (groups : List (List Nat)) :
    selectorsOf kind (shiftGroups n groups)
      = (selectorsOf kind groups).map fun (var, selector) => (n + var, selector) := by
  rw [selectorsOf, selectorsOf, shiftGroups, List.zipIdx_map, List.flatMap_map, List.map_flatMap]
  refine List.flatMap_congr fun p _ => ?_
  show (p.1.map (n + ·)).zipIdx.map _ = (p.1.zipIdx.map _).map _
  rw [List.zipIdx_map, List.map_map, List.map_map]
  rfl

/-- The clause that excludes two selectors is renumbered with them. -/
theorem notBoth_add (v w : Nat) : notBoth (n + v) (n + w) = (notBoth v w).shift n := rfl

/-- So are the clauses of a group. -/
theorem exactlyOneOf_map_add (group : List Nat) :
    exactlyOneOf (group.map (n + ·)) = (exactlyOneOf group).map (Clause.shift n) := by
  have hsome : someOf (group.map (n + ·)) = (someOf group).shift n := by
    rw [someOf, someOf, Clause.shift, List.map_map, List.map_map]
    rfl
  rw [exactlyOneOf, exactlyOneOf, List.isEmpty_map, pairs_map, hsome]
  split
  · rfl
  · rw [List.map_cons, List.map_map, List.map_map]
    rfl

/-- So are the clauses of overlapping candidates: which candidates overlap does not depend on numbers. -/
theorem conflicts_map_add {β : Type} (overlap : β → β → Bool) (groups : List (List Nat))
    (candidates : List (List β)) :
    conflicts overlap (List.zipWith List.zip (shiftGroups n groups) candidates)
      = (conflicts overlap (List.zipWith List.zip groups candidates)).map (Clause.shift n) := by
  have hentities : List.zipWith List.zip (shiftGroups n groups) candidates
      = (List.zipWith List.zip groups candidates).map (List.map (Prod.map (n + ·) id)) := by
    rw [shiftGroups, List.zipWith_map_left, List.map_zipWith]
    simp only [List.zip_map_left]
  -- Three loops: over the pairs of entities and over the candidates of both. Only the innermost one
  -- looks at the variables.
  rw [hentities, conflicts, conflicts, pairs_map, List.flatMap_map, List.map_flatMap]
  refine List.flatMap_congr fun p _ => ?_
  show (p.1.map (Prod.map (n + ·) id)).flatMap _ = _
  rw [List.flatMap_map, List.map_flatMap]
  refine List.flatMap_congr fun q _ => ?_
  show (p.2.map (Prod.map (n + ·) id)).filterMap _ = _
  rw [List.filterMap_map, List.map_filterMap]
  refine List.filterMap_congr fun r _ => ?_
  show (if overlap q.2 r.2 then some (notBoth (n + q.1) (n + r.1)) else none)
    = Option.map _ (if _ then _ else _)
  rw [notBoth_add]
  split <;> rfl

/-- The groups of two kinds are renumbered together. -/
theorem shiftGroups_append (groups others : List (List Nat)) :
    shiftGroups n groups ++ shiftGroups n others = shiftGroups n (groups ++ others) :=
  List.map_append.symm

/-- The clauses of all groups are renumbered with the groups. -/
theorem flatMap_exactlyOneOf_shiftGroups (groups : List (List Nat)) :
    (shiftGroups n groups).flatMap exactlyOneOf
      = (groups.flatMap exactlyOneOf).map (Clause.shift n) := by
  rw [shiftGroups, List.flatMap_map, List.map_flatMap]
  exact List.flatMap_congr fun group _ => exactlyOneOf_map_add n group

/-- Renumbering leaves no group empty that was not. -/
theorem countP_shiftGroups (groups : List (List Nat)) :
    (shiftGroups n groups).countP (!·.isEmpty) = groups.countP (!·.isEmpty) := by
  rw [shiftGroups, List.countP_map]
  exact congrArg (List.countP · groups) (funext fun group => by simp)

/-- There are as many pairs of selectors as before. -/
theorem length_flatMap_pairs_shiftGroups (groups : List (List Nat)) :
    ((shiftGroups n groups).flatMap pairs).length = (groups.flatMap pairs).length := by
  simp only [shiftGroups, List.flatMap_map, List.length_flatMap, pairs_map, List.length_map]

end

section
variable {α : Type} [Scalar α] (rules : Rules α) (circles : List (Circle α))
  (dots : List (List (DotCandidate α))) (labels : List (List (LabelCandidate α)))

/-- Encoding into a formula gives the encoding that starts from nothing, put after the formula. -/
theorem encode_eq_map (start : Formula) :
    encode start rules circles dots labels
      = (encode .empty rules circles dots labels).map (after start) := by
  have horg : groupsFrom (start.numVars + 1) (dots.map List.length)
      = shiftGroups start.numVars (groupsFrom (0 + 1) (dots.map List.length)) := groupsFrom_add _ _ _
  have hlabel : groupsFrom (start.numVars + dots.flatten.length + 1) (labels.map List.length)
      = shiftGroups start.numVars (groupsFrom (0 + dots.flatten.length + 1) (labels.map List.length)) := by
    rw [← groupsFrom_add, Nat.zero_add, Nat.add_assoc]
  -- Whether a circle is missing does not depend on the start. If none is, everything is shifted alike.
  rw [encode, encode]
  cases lacksCircle circles labels with
  | true => rfl
  | false =>
    simp only [Bool.false_eq_true, if_false, horg, hlabel, Formula.empty]
    generalize groupsFrom (0 + 1) _ = orgVars
    generalize groupsFrom (0 + dots.flatten.length + 1) _ = labelVars
    rw [conflicts_map_add, conflicts_map_add, selectorsOf_shiftGroups, selectorsOf_shiftGroups,
      shiftGroups_append, flatMap_exactlyOneOf_shiftGroups, countP_shiftGroups,
      length_flatMap_pairs_shiftGroups]
    simp only [Except.map, after, Formula.beside, List.nil_append, Nat.zero_add, Nat.add_assoc,
      List.map_append, List.append_assoc, List.length_map]

/-! ### Deciding and decoding -/

variable {rules circles dots labels} {e : Encoding}

/-- The selectors of an encoding that starts from nothing are its variables. -/
theorem Encodes.le_of_mem (h : Encodes rules circles dots labels e) :
    ∀ group ∈ e.orgVars ++ e.labelVars, ∀ v ∈ group, 1 ≤ v ∧ v ≤ e.formula.numVars := by
  intro group hgroup v hv
  have hrange : v ∈ List.range' 1 e.formula.numVars :=
    h.vars_eq ▸ List.mem_flatten.mpr ⟨group, hgroup, hv⟩
  obtain ⟨hpos, hlt⟩ := List.mem_range'_1.mp hrange
  omega

/-- The clauses of such an encoding name its own variables only. -/
theorem Encodes.closed (h : Encodes rules circles dots labels e) : e.formula.Closed := by
  intro c hc l hl
  obtain ⟨group, hgroup, hv⟩ := h.exists_group hc hl
  exact h.le_of_mem group hgroup l.var hv

section
variable {start : Formula} {head : List Bool} {model : Array Bool}

/-- Later variables read the later values. -/
theorem firstTrue_map_add {group : List Nat} (hgroup : ∀ v ∈ group, 1 ≤ v) (k : Nat) :
    Decoding.firstTrue (head ++ model.toList).toArray k (group.map (head.length + ·))
      = Decoding.firstTrue model k group := by
  induction group generalizing k with
  | nil => rfl
  | cons v rest ih =>
    obtain ⟨hv, hrest⟩ := List.forall_mem_cons.mp hgroup
    have hvalue : Result.valueIn? (head ++ model.toList).toArray (head.length + v)
        = Result.valueIn? model v := by
      rw [valueIn?_eq, valueIn?_eq]
      exact Assignment.ofList_append_add hv
    rw [List.map_cons, Decoding.firstTrue, Decoding.firstTrue, hvalue, ih hrest]

/-- A group that is missing stays missing, and one that is there is only renumbered. -/
theorem chosen_shiftGroups {β : Type} {groups : List (List Nat)}
    (hgroups : ∀ group ∈ groups, ∀ v ∈ group, 1 ≤ v) (candidates : List (List β)) (i : Nat) :
    Decoding.chosen (head ++ model.toList).toArray (shiftGroups head.length groups) candidates i
      = Decoding.chosen model groups candidates i := by
  rw [Decoding.chosen, Decoding.chosen, shiftGroups, List.getElem?_map]
  cases hi : groups[i]? with
  | none => rfl
  | some group =>
    rw [Option.map_some, Decoding.found, Decoding.found, bind_ok, bind_ok,
      firstTrue_map_add (hgroups group (List.mem_of_getElem? hi))]

/-- All entities are decoded as before. -/
theorem placeAll_shiftGroups {β γ δ : Type} {groups : List (List Nat)}
    (hgroups : ∀ group ∈ groups, ∀ v ∈ group, 1 ≤ v) (candidates : List (List β))
    (place : γ → Option β → δ) (entities : List γ) :
    Decoding.placeAll (head ++ model.toList).toArray (shiftGroups head.length groups) candidates place
        entities
      = Decoding.placeAll model groups candidates place entities := by
  simp only [Decoding.placeAll, chosen_shiftGroups hgroups]

/-- A model that goes on after other values decodes to the same layout. -/
theorem Encodes.decode_after (h : Encodes rules circles dots labels e) (hhead : head.length = start.numVars)
    (organizations : List Organization) (effort effort' : Effort) :
    decode ⟨.sat (head ++ model.toList).toArray, effort'⟩ (e.after start) organizations circles dots labels
      = decode ⟨.sat model, effort⟩ e organizations circles dots labels := by
  have hpos : ∀ group ∈ e.orgVars ++ e.labelVars, ∀ v ∈ group, 1 ≤ v :=
    fun group hgroup v hv => (h.le_of_mem group hgroup v hv).1
  obtain ⟨horg, hlabel⟩ := List.forall_mem_append.mp hpos
  rw [decode, decode, after, ← hhead]
  simp only [Result.model?, placeAll_shiftGroups horg, placeAll_shiftGroups hlabel]

end

omit [Scalar α] in
/-- A result is a verdict with counters, which decoding does not read. -/
theorem decode_unsat {r : Result} (hverdict : r.verdict = .unsat) (e : Encoding)
    (organizations : List Organization) :
    decode r e organizations circles dots labels = .error .unsatisfiable := by
  simp only [decode, Result.model?, hverdict]

/-- Two encodings of the same candidates, of which both have a model or neither, and whose models are
decoded to the same layout. -/
structure DecodesAlike (circles : List (Circle α)) (dots : List (List (DotCandidate α)))
    (labels : List (List (LabelCandidate α))) (fresh e : Encoding) : Prop where
  ok_eq : e.formula.decide.ok = fresh.formula.decide.ok
  decode_eq : ∀ organizations : List Organization,
    decode e.formula.decide e organizations circles dots labels
      = decode fresh.formula.decide fresh organizations circles dots labels
  exists_layout : fresh.formula.decide.ok = true → ∀ organizations : List Organization,
    organizations.length ≤ dots.length →
      ∃ l, decode e.formula.decide e organizations circles dots labels = .ok l

/-- If what was there can be satisfied, the encoding that comes after it is decoded as if it came
first. -/
theorem Encodes.decodesAlike_after {start : Formula} (h : Encodes rules circles dots labels e)
    (hlabels : labels.length = circles.length) (hstart : start.Closed) (hmodel : start.HasModel) :
    DecodesAlike circles dots labels e (e.after start) := by
  have hformula : start.beside e.formula = (e.after start).formula := rfl
  have hcases := Formula.verdict_beside hstart h.closed hmodel
  rw [hformula] at hcases
  -- The formula in front has a model, so there is one behind it just if the encoding has one by itself;
  -- and then it is the same, after the first values.
  rcases hcases with ⟨head, model, hhead, hverdict, hverdict'⟩ | ⟨hunsat, hunsat'⟩
  · have hresult : e.formula.decide = ⟨.sat model, e.formula.decide.effort⟩ :=
      congrArg (Result.mk · e.formula.decide.effort) hverdict
    have hresult' : (e.after start).formula.decide
        = ⟨.sat (head ++ model.toList).toArray, (e.after start).formula.decide.effort⟩ :=
      congrArg (Result.mk · (e.after start).formula.decide.effort) hverdict'
    have hsame : ∀ organizations : List Organization,
        decode (e.after start).formula.decide (e.after start) organizations circles dots labels
          = decode e.formula.decide e organizations circles dots labels := by
      intro organizations
      rw [hresult, hresult']
      exact h.decode_after hhead organizations _ _
    refine ⟨by rw [hresult, hresult']; rfl, hsame, fun _ organizations horganizations => ?_⟩
    rcases h.verdict_cases with ⟨_, hfound, hisModel, -⟩ | ⟨hunsat, -⟩
    · obtain rfl := Verdict.sat.inj (hverdict.symm.trans hfound)
      rw [hsame, hresult, h.decode_eq hlabels horganizations hisModel.1]
      exact ⟨_, rfl⟩
    · exact absurd (hverdict.symm.trans hunsat) (by simp)
  · have hok : e.formula.decide.ok = false := by rw [Result.ok, hunsat]
    refine ⟨?_, fun organizations => ?_, fun htrue => absurd htrue (by simp [hok])⟩
    · rw [hok, Result.ok, hunsat']
    · rw [decode_unsat hunsat, decode_unsat hunsat']

/-- Handing the encoder a formula that is already in use does not disturb the layout. The formula names
its own variables only. If it has a model, the whole has one exactly if the encoding alone has, and is
decoded to the same layout. If it has none, neither has the whole. -/
theorem encode_undisturbed (rules : Rules α) {circles : List (Circle α)}
    (dots : List (List (DotCandidate α))) {labels : List (List (LabelCandidate α))} {start : Formula}
    (hstart : start.Closed) (hlabels : labels.length = circles.length) :
    ∃ fresh e : Encoding, encode .empty rules circles dots labels = .ok fresh ∧
      encode start rules circles dots labels = .ok e ∧
      (start.HasModel → DecodesAlike circles dots labels fresh e) ∧
      (¬ start.HasModel → e.formula.decide.verdict = .unsat) := by
  obtain ⟨fresh, hfresh, h⟩ := exists_encodes rules dots hlabels
  have hencode : encode start rules circles dots labels = .ok (fresh.after start) := by
    rw [encode_eq_map, hfresh]
    rfl
  refine ⟨fresh, fresh.after start, hfresh, hencode, h.decodesAlike_after hlabels hstart, fun hnone => ?_⟩
  -- Clauses are only added to the formula, so what refutes it refutes the whole.
  rcases Formula.decide_cases_of_closed hstart with ⟨values, hlength, htrue, -⟩ | ⟨hunsat, -⟩
  · exact absurd ⟨_, hlength ▸ Assignment.covers_ofList values, htrue⟩ hnone
  · exact (Formula.grows_beside start fresh.formula).unsat hunsat

end

/-- A formula with clauses that make its first variable false. -/
def held : Formula := ⟨2, [[.no 1, .yes 2], [.no 1, .no 2]]⟩

/-- A variable that has to be both true and false. -/
def contradictory : Formula := ⟨1, [[.yes 1], [.no 1]]⟩

/-- Two organizations, the first of which can keep away from the second at its second point only, and a
circle with two places for its label, encoded after a formula with a model and after one without. -/
theorem encode_undisturbed_two_dots :
    let circles : List (Circle Float) := [⟨0, "A", "red", 0, 5000, 100⟩]
    let dots : List (List (DotCandidate Float)) := [[⟨0, 0, 1⟩, ⟨1000, 0, 1⟩], [⟨10, 0, 1⟩, ⟨0, 10, 1⟩]]
    let labels : List (List (LabelCandidate Float)) := [[⟨100, 5000, 0⟩, ⟨-100, 5000, 180⟩]]
    held.Closed ∧ contradictory.Closed ∧ labels.length = circles.length ∧
      held.HasModel ∧ ¬ contradictory.HasModel ∧
      ∃ fresh e e' : Encoding, encode .empty Rules.standard circles dots labels = .ok fresh ∧
        encode held Rules.standard circles dots labels = .ok e ∧
        encode contradictory Rules.standard circles dots labels = .ok e' ∧
        DecodesAlike circles dots labels fresh e ∧ e'.formula.decide.verdict = .unsat := by
  intro circles dots labels
  have hheld : held.Closed := by unfold Formula.Closed; decide
  have hcontradictory : contradictory.Closed := by unfold Formula.Closed; decide
  have hmodel : held.HasModel :=
    ⟨.ofList [false, true], Assignment.covers_ofList [false, true], by decide⟩
  -- Its two clauses ask for opposite values of one variable.
  have hnone : ¬ contradictory.HasModel := by
    rintro ⟨a, -, htrue⟩
    have hyes := htrue [.yes 1] (by decide)
    have hno := htrue [.no 1] (by decide)
    simp [Clause.eval_eq_some_true_iff] at hyes hno
    simp [hyes] at hno
  obtain ⟨fresh, e, hfresh, he, halike, -⟩ := encode_undisturbed Rules.standard dots hheld
    (show labels.length = circles.length from rfl)
  obtain ⟨_, e', -, he', -, hunsat⟩ := encode_undisturbed Rules.standard dots hcontradictory
    (show labels.length = circles.length from rfl)
  exact ⟨hheld, hcontradictory, rfl, hmodel, hnone, fresh, e, e', hfresh, he, he', halike hmodel,
    hunsat hnone⟩

end Encoding
end VennDiagram
