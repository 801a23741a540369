import Mathlib.Data.List.Forall2
import Mathlib.Data.List.Nodup
import Mathlib.Data.Set.Function
import VennDiagram.Placement.Layout
import VennDiagram.Proofs.Placement.Selectors
import VennDiagram.Proofs.Steps

/-!
# `VennDiagram.Proofs.Placement.Choice`: choices and the models that stand for them

A choice gives every entity that has candidates the number of one of them, and every other entity
nothing (`Fits`). A model of an encoding stands for a choice: `firstTrue?` reads off a group of selectors
which of them is the first that is true, which is what decoding does.

* `taken_zip_eq`: under a model that makes at most one selector of a group true, the candidates taken are
  the one at the number that is read off.
* `chosen_eq`: so is the candidate that is decoded, if every selector has a value.
* `bijOn_firstTrue?`: reading choices off models is a bijection between the models that make exactly one
  selector of every group true and the choices that fit the groups. The inverse makes the chosen
  selectors true and all others false.
-/

set_option autoImplicit false

namespace VennDiagram

variable {β : Type}

/-- A number that chooses one of `count` candidates. Nothing is chosen when there are none. -/
def Fits (count : Nat) : Option Nat → Prop
  | none => count = 0
  | some k => k < count

/-- The candidate chosen for each entity. -/
def picks (candidates : List (List β)) (choice : List (Option Nat)) : List (Option β) :=
  List.zipWith (fun candidates k => k.bind fun k => candidates[k]?) candidates choice

/-- The number of the first variable of a group that is true. -/
def firstTrue? (a : Assignment) (group : List Nat) : Option Nat :=
  group.findIdx? fun v => a v = some true

/-- The assignment of a model. -/
theorem valueIn?_eq (model : Array Bool) (var : Nat) :
    Result.valueIn? model var = Assignment.ofList model.toList var := by
  cases var <;> simp [Result.valueIn?, Assignment.ofList]

namespace Encoding

variable {a : Assignment} {group : List Nat}

/-- What is taken is the candidate at the first true selector, if no other selector is true. -/
theorem taken_zip_eq (hone : AtMostOne a group) {candidates : List β}
    (hlength : group.length = candidates.length) :
    taken a (group.zip candidates) = ((firstTrue? a group).bind (candidates[·]?)).toList := by
  induction group generalizing candidates with
  | nil => rfl
  | cons v rest ih =>
    obtain ⟨x, xs, rfl⟩ := List.exists_cons_of_length_eq_add_one hlength.symm
    obtain ⟨hfirst, hrest⟩ := List.pairwise_cons.mp hone
    have hih := ih hrest (Nat.succ.inj hlength)
    by_cases hv : a v = some true
    · -- The first selector is the true one, so no later candidate is taken.
      have hnone : taken a (rest.zip xs) = [] := by
        refine List.eq_nil_iff_forall_not_mem.mpr fun y hy => ?_
        obtain ⟨w, hw, hwtrue⟩ := mem_taken.mp hy
        exact hfirst w (List.of_mem_zip hw).1 ⟨hv, hwtrue⟩
      simp [taken, firstTrue?, List.findIdx?_cons, hv] at hnone ⊢
      exact hnone
    · have hstep : taken a ((v :: rest).zip (x :: xs)) = taken a (rest.zip xs) := by
        simp [taken, hv]
      rw [hstep, hih, firstTrue?, firstTrue?, List.findIdx?_cons]
      simp only [hv, decide_false, Bool.false_eq_true, if_false]
      cases rest.findIdx? fun v => a v = some true <;> rfl

/-- Where every selector of a group has a value, decoding finds the first that is true. -/
theorem firstTrue_eq {model : Array Bool} {group : List Nat}
    (hvalues : ∀ v ∈ group, (Assignment.ofList model.toList v).isSome = true) (k : Nat) :
    Decoding.firstTrue model k group
      = .ok ((firstTrue? (Assignment.ofList model.toList) group).map (· + k)) := by
  -- The induction is on the selectors that are still to be looked up, whatever number comes next.
  induction group generalizing k with
  | nil => rfl
  | cons v rest ih =>
    obtain ⟨hv, hrest⟩ := List.forall_mem_cons.mp hvalues
    obtain ⟨value, hvalue⟩ := Option.isSome_iff_exists.mp hv
    rw [Decoding.firstTrue, valueIn?_eq, hvalue, Decoding.found, bind_ok, ih hrest]
    cases value with
    | true => simp [firstTrue?, List.findIdx?_cons, hvalue, pure, Except.pure]
    | false =>
      simp [firstTrue?, List.findIdx?_cons, hvalue, Function.comp_def, Nat.add_assoc, Nat.add_comm 1]

/-- With a value for every selector of its group and a candidate for each of them, an entity is decoded
to the candidate at the first true selector. -/
theorem chosen_eq {model : Array Bool} {groups : List (List Nat)} {candidates : List (List β)} {i : Nat}
    (hi : i < groups.length) (hown : i < candidates.length)
    (hlength : groups[i].length = candidates[i].length)
    (hvalues : ∀ v ∈ groups[i], (Assignment.ofList model.toList v).isSome = true) :
    Decoding.chosen model groups candidates i
      = .ok ((firstTrue? (Assignment.ofList model.toList) groups[i]).bind (candidates[i][·]?)) := by
  rw [Decoding.chosen, List.getElem?_eq_getElem hi, Decoding.found, bind_ok, firstTrue_eq hvalues, bind_ok]
  cases hfirst : firstTrue? (Assignment.ofList model.toList) groups[i] with
  | none => rfl
  | some k =>
    -- The number is one of the group, and so one of the candidates.
    have hk : k < candidates[i].length := hlength ▸ (List.findIdx?_eq_some_iff_getElem.mp hfirst).1
    rw [Option.map_some, Option.bind_some, Nat.add_zero, List.getElem?_eq_getElem hk]
    dsimp only
    rw [List.getElem?_eq_getElem hown, Decoding.found, bind_ok, List.getElem?_eq_getElem hk]
    rfl

/-- The true variable of a group is the one at the number that is read off. -/
theorem mem_true_iff (hone : AtMostOne a group) {v : Nat} :
    v ∈ group ∧ a v = some true ↔ (firstTrue? a group).bind (group[·]?) = some v := by
  rw [← Option.mem_def, ← Option.mem_toList, ← taken_zip_eq hone rfl, mem_taken]
  constructor
  · rintro ⟨hv, htrue⟩
    obtain ⟨k, hk, rfl⟩ := List.getElem_of_mem hv
    exact ⟨_, List.mem_iff_getElem.mpr ⟨k, by simpa using hk, List.getElem_zip⟩, htrue⟩
  · rintro ⟨w, hw, htrue⟩
    obtain ⟨k, hk, heq⟩ := List.getElem_of_mem hw
    obtain ⟨rfl, rfl⟩ := Prod.mk.inj (List.getElem_zip.symm.trans heq)
    exact ⟨List.getElem_mem _, htrue⟩

/-- What is read off a group fits it. -/
theorem fits_firstTrue? (h : ExactlyOne a group) : Fits group.length (firstTrue? a group) := by
  cases hfirst : firstTrue? a group with
  | none =>
    have hnone := List.findIdx?_eq_none_iff.mp hfirst
    show group.length = 0
    by_contra hne
    obtain ⟨v, ⟨hv, htrue⟩, -⟩ := h (mt List.length_eq_zero_iff.mpr hne)
    have hfalse := hnone v hv
    simp [htrue] at hfalse
  | some k =>
    exact (List.findIdx?_eq_some_iff_getElem.mp hfirst).1

/-- What is read off all groups fits them. -/
theorem fits_map_firstTrue? {groups : List (List Nat)} (h : ∀ group ∈ groups, ExactlyOne a group) :
    List.Forall₂ Fits (groups.map List.length) (groups.map (firstTrue? a)) := by
  rw [List.forall₂_map_left_iff, List.forall₂_map_right_iff, List.forall₂_same]
  exact fun group hgroup => fits_firstTrue? (h group hgroup)

/-- If the one true variable of a group is the one at a number that fits, this number is read off. -/
theorem firstTrue?_eq_of_fits (hgroup : group.Nodup) {k : Option Nat} (hk : Fits group.length k)
    (h : ∀ v ∈ group, a v = some true ↔ k.bind (group[·]?) = some v) :
    firstTrue? a group = k ∧ ExactlyOne a group := by
  cases k with
  | none =>
    obtain rfl : group = [] := List.length_eq_zero_iff.mp hk
    exact ⟨rfl, fun hne => absurd rfl hne⟩
  | some k =>
    have hlt : k < group.length := hk
    -- Exactly the chosen variable is true, so it is the first one.
    have htrue : ∀ v ∈ group, a v = some true ↔ group[k] = v := fun v hv => by
      rw [h v hv, Option.bind_some, List.getElem?_eq_getElem hlt, Option.some.injEq]
    constructor
    · refine List.findIdx?_eq_some_iff_getElem.mpr ⟨hlt, ?_, fun j hj => ?_⟩
      · simpa using (htrue _ (List.getElem_mem hlt)).mpr rfl
      · have hne : group[k] ≠ group[j] := fun heq =>
          absurd ((hgroup.getElem_inj_iff).mp heq) (by omega)
        simpa using mt (htrue _ (List.getElem_mem _)).mp hne
    · intro _
      exact ⟨group[k], ⟨List.getElem_mem hlt, (htrue _ (List.getElem_mem hlt)).mpr rfl⟩,
        fun w hw => ((htrue w hw.1).mp hw.2).symm⟩

/-! ### Models and choices -/

/-- The model of a choice: the chosen selectors are true and all others false. -/
def modelOf (n : Nat) (groups : List (List Nat)) (choice : List (Option Nat)) : Array Bool :=
  ((List.range n).map fun i => decide (some (i + 1) ∈ picks groups choice)).toArray

/-- The model of a choice makes exactly the chosen variables true. -/
theorem ofList_modelOf_iff {n v : Nat} (hv : v ∈ List.range' 1 n) (groups : List (List Nat))
    (choice : List (Option Nat)) :
    Assignment.ofList (modelOf n groups choice).toList v = some true ↔
      some v ∈ picks groups choice := by
  obtain ⟨hpos, hlt⟩ := List.mem_range'_1.mp hv
  obtain ⟨i, rfl⟩ : ∃ i, v = i + 1 := ⟨v - 1, by omega⟩
  have hi : i < n := by omega
  simp [Assignment.ofList, modelOf, hi]

/-- A selector is chosen in its own group. -/
theorem mem_of_bind_eq_some {k : Option Nat} {v : Nat} (h : k.bind (group[·]?) = some v) :
    v ∈ group := by
  obtain ⟨i, -, hi⟩ := Option.bind_eq_some_iff.mp h
  exact List.mem_of_getElem? hi

/-- A chosen variable is one of the groups. -/
theorem mem_flatten_of_mem_picks {groups : List (List Nat)} {choice : List (Option Nat)} {v : Nat}
    (h : some v ∈ picks groups choice) : v ∈ groups.flatten := by
  induction groups generalizing choice with
  | nil => simp [picks] at h
  | cons group rest ih =>
    cases choice with
    | nil => simp [picks] at h
    | cons k ks =>
      rw [List.flatten_cons, List.mem_append]
      rcases List.mem_cons.mp h with heq | hmem
      · exact Or.inl (mem_of_bind_eq_some heq.symm)
      · exact Or.inr (ih hmem)

/-- An assignment that makes exactly the chosen selectors true, read group by group. The groups are
disjoint, so what is chosen in one of them does not show in another. -/
theorem map_firstTrue?_eq {groups : List (List Nat)} {choice : List (Option Nat)}
    (hgroups : groups.flatten.Nodup) (hfit : List.Forall₂ Fits (groups.map List.length) choice)
    (h : ∀ v ∈ groups.flatten, a v = some true ↔ some v ∈ picks groups choice) :
    groups.map (firstTrue? a) = choice ∧ ∀ group ∈ groups, ExactlyOne a group := by
  induction groups generalizing choice with
  | nil =>
    cases hfit
    exact ⟨rfl, by simp⟩
  | cons group rest ih =>
    cases hfit with
    | @cons _ k _ ks hk hks =>
      rw [List.flatten_cons, List.nodup_append] at hgroups
      obtain ⟨hgroup, hrest, hdisjoint⟩ := hgroups
      -- No variable is in two groups, so what is picked from the others does not matter here.
      have hhere : ∀ v ∈ group, a v = some true ↔ k.bind (group[·]?) = some v := fun v hv => by
        rw [h v (List.mem_append_left _ hv)]
        refine ⟨fun hmem => ?_, fun heq => List.mem_cons.mpr (Or.inl heq.symm)⟩
        rcases List.mem_cons.mp hmem with heq | hlater
        · exact heq.symm
        · exact absurd rfl (hdisjoint v hv v (mem_flatten_of_mem_picks hlater))
      -- Nor does what is picked here matter for the others.
      have hthere : ∀ v ∈ rest.flatten, a v = some true ↔ some v ∈ picks rest ks := fun v hv => by
        rw [h v (List.mem_append_right _ hv)]
        refine ⟨fun hmem => ?_, fun hlater => List.mem_cons.mpr (Or.inr hlater)⟩
        rcases List.mem_cons.mp hmem with heq | hlater
        · exact absurd rfl (hdisjoint v (mem_of_bind_eq_some heq.symm) v hv)
        · exact hlater
      obtain ⟨hfirst, hone⟩ := firstTrue?_eq_of_fits hgroup hk hhere
      obtain ⟨hmap, hones⟩ := ih hrest hks hthere
      exact ⟨by rw [List.map_cons, hfirst, hmap], List.forall_mem_cons.mpr ⟨hone, hones⟩⟩

/-- Models of selectors that are all the variables `1 .. n` are told apart by what is read off. -/
theorem model_eq_of_map_firstTrue? {n : Nat} {groups : List (List Nat)} {model other : Array Bool}
    (hgroups : groups.flatten = List.range' 1 n) (hsize : model.size = n) (hsize' : other.size = n)
    (hone : ∀ group ∈ groups, ExactlyOne (Assignment.ofList model.toList) group)
    (hone' : ∀ group ∈ groups, ExactlyOne (Assignment.ofList other.toList) group)
    (h : groups.map (firstTrue? (Assignment.ofList model.toList))
      = groups.map (firstTrue? (Assignment.ofList other.toList))) : model = other := by
  have hnodup : groups.flatten.Nodup := hgroups ▸ List.nodup_range'
  refine Array.ext (hsize.trans hsize'.symm) fun i hi hi' => ?_
  have hmem : i + 1 ∈ groups.flatten := by
    rw [hgroups, List.mem_range'_1]
    omega
  obtain ⟨group, hgroup, hv⟩ := List.mem_flatten.mp hmem
  have hdistinct : group.Nodup := (List.nodup_flatten.mp hnodup).1 group hgroup
  have hread := List.map_inj_left.mp h group hgroup
  -- Both models make the same variable of the group true, and no other variable of it.
  have htrue := mem_true_iff ((hone group hgroup).atMostOne hdistinct) (v := i + 1)
  have htrue' := mem_true_iff ((hone' group hgroup).atMostOne hdistinct) (v := i + 1)
  rw [hread, ← htrue'] at htrue
  rw [Bool.eq_iff_iff]
  simpa [hv, Assignment.ofList, hi, hi'] using htrue

/-- Reading choices off models is a bijection, if the selectors are all the variables `1 .. n`. -/
theorem bijOn_firstTrue? {n : Nat} {groups : List (List Nat)}
    (hgroups : groups.flatten = List.range' 1 n) :
    Set.BijOn (fun model : Array Bool => groups.map (firstTrue? (Assignment.ofList model.toList)))
      {model | model.size = n ∧ ∀ group ∈ groups, ExactlyOne (Assignment.ofList model.toList) group}
      {choice | List.Forall₂ Fits (groups.map List.length) choice} := by
  refine ⟨?_, ?_, ?_⟩
  · rintro model ⟨-, hone⟩
    exact fits_map_firstTrue? hone
  · rintro model ⟨hsize, hone⟩ other ⟨hsize', hone'⟩ h
    exact model_eq_of_map_firstTrue? hgroups hsize hsize' hone hone' h
  · rintro choice hfit
    -- No variable is in two groups, so the model of a choice gives each group the value it chose.
    have hnodup : groups.flatten.Nodup := hgroups ▸ List.nodup_range'
    obtain ⟨hmap, hone⟩ := map_firstTrue?_eq (a := Assignment.ofList (modelOf n groups choice).toList)
      hnodup hfit fun v hv => ofList_modelOf_iff (hgroups ▸ hv) groups choice
    exact ⟨modelOf n groups choice, ⟨by simp [modelOf], hone⟩, hmap⟩

end Encoding
end VennDiagram
