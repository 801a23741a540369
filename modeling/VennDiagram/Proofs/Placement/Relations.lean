import VennDiagram.Placement.Arrangement

/-!
# `VennDiagram.Proofs.Placement.Relations`: counts that fit together

The radius of a circle comes from the counts of its category. They are a table: a row for each category,
with the organizations that it shares with each other one, and next to it the organizations that are in
it. `Coherent` says how the numbers of such a table depend on each other, and `relations_coherent` that
the table of a document is one.

Three counts go through the organizations together: those in one category, those in another one, and those
in both. An organization in both is counted three times, and one in neither not at all, so the first two
counts do not add up to more than the third one and the number of organizations
(`memberCount_add_memberCount_le`). A list of organizations that is put together from two has the counts of
both, and a row is added to a row (`Relation.plus`).

Nothing is asked of the document. A category may come twice, with the same row twice, and organizations may
name a category more than once, or one that is not there.
-/

set_option autoImplicit false

namespace VennDiagram

/-- The counts of one category in two lists of organizations, taken together. -/
def Relation.plus (s t : Relation) : Relation :=
  { s with
    overlaps := List.zipWith (· + ·) s.overlaps t.overlaps
    orgCount := s.orgCount + t.orgCount }

namespace Document

/-! ### Organizations -/

section
variable (organizations more : List Organization) (name other : String)

/-- The members of a category are the organizations that list it. -/
theorem memberCount_eq :
    memberCount organizations name = (organizations.filter fun o => name ∈ o.categories).length := by
  rw [memberCount, List.countP_eq_length_filter]
  simp only [Organization.isIn, List.contains_eq_mem]

/-- The members of two categories are the organizations that list both. -/
theorem sharedCount_eq :
    sharedCount organizations name other
      = (organizations.filter fun o => name ∈ o.categories ∧ other ∈ o.categories).length := by
  rw [sharedCount, List.countP_eq_length_filter]
  simp only [Organization.isIn, List.contains_eq_mem, Bool.decide_and]

/-- Sharing goes both ways. -/
theorem sharedCount_comm : sharedCount organizations name other = sharedCount organizations other name :=
  List.countP_congr fun o _ => by rw [Bool.and_comm]

/-- A category shares no more members than it has. -/
theorem sharedCount_le_left : sharedCount organizations name other ≤ memberCount organizations name := by
  refine List.countP_mono_left fun o _ hboth => ?_
  exact (Bool.and_eq_true_iff.mp hboth).1

/-- The organizations in one category or another are not more than all. -/
theorem memberCount_add_memberCount_le :
    memberCount organizations name + memberCount organizations other
      ≤ sharedCount organizations name other + organizations.length := by
  induction organizations with
  | nil => exact Nat.le_refl 0
  | cons o rest ih =>
    simp only [memberCount, sharedCount, List.countP_cons, List.length_cons] at ih ⊢
    -- What is left on the right-hand side is one if the organization is in just one of them or in neither.
    cases o.isIn name <;> cases o.isIn other <;> simp <;> omega

/-- The members of two lists of organizations are counted list by list. -/
theorem memberCount_append :
    memberCount (organizations ++ more) name = memberCount organizations name + memberCount more name :=
  List.countP_append

/-- So are those that are shared. -/
theorem sharedCount_append :
    sharedCount (organizations ++ more) name other
      = sharedCount organizations name other + sharedCount more name other :=
  List.countP_append

end

/-! ### The table -/

section
variable {α : Type}

/-- The counts of a category at a position. -/
def relation (d : Document α) (c : Category α) (i : Nat) : Relation where
  index := i
  name := c.name
  color := c.color
  overlaps := d.categories.zipIdx.map fun (other, j) =>
    if i = j then 0 else sharedCount d.organizations c.name other.name
  orgCount := memberCount d.organizations c.name

/-- Each category has its own counts, in order. -/
theorem relations_eq (d : Document α) : d.relations = d.categories.zipIdx.map fun (c, i) => d.relation c i :=
  rfl

/-- The counts at an index are those of the category at that index. -/
theorem getElem?_relations {d : Document α} {i : Nat} {s : Relation} :
    d.relations[i]? = some s ↔ ∃ c, d.categories[i]? = some c ∧ d.relation c i = s := by
  rw [relations_eq, List.getElem?_map, List.getElem?_zipIdx, Option.map_map, Option.map_eq_some_iff,
    Nat.zero_add]
  rfl

/-- The members shared with a category stand at its index, and none are shared with itself. -/
theorem getElem?_overlaps (d : Document α) (c : Category α) (i j : Nat) :
    (d.relation c i).overlaps[j]?
      = d.categories[j]?.map fun other =>
          if i = j then 0 else sharedCount d.organizations c.name other.name := by
  rw [relation, List.getElem?_map, List.getElem?_zipIdx, Option.map_map, Nat.zero_add]
  rfl

/-- The counts of categories fit together: there is a number for any two of them, the same from either
side, and zero for a category and itself. Apart from that it counts the organizations in both. These are
not more than are in either one, and not fewer than there must be among all the organizations. -/
structure Coherent (organizations : List Organization) (rs : List Relation) : Prop where
  length_overlaps : ∀ s ∈ rs, s.overlaps.length = rs.length
  comm : ∀ (i j : Nat) (s t : Relation), rs[i]? = some s → rs[j]? = some t →
    s.overlaps[j]? = t.overlaps[i]?
  self : ∀ (i : Nat) (s : Relation), rs[i]? = some s → s.overlaps[i]? = some 0
  orgCount_eq : ∀ s ∈ rs, s.orgCount = (organizations.filter fun o => s.name ∈ o.categories).length
  overlaps_eq : ∀ (i j : Nat) (s t : Relation), i ≠ j → rs[i]? = some s → rs[j]? = some t →
    s.overlaps[j]? = some
      (organizations.filter fun o => s.name ∈ o.categories ∧ t.name ∈ o.categories).length
  bounds : ∀ (i j : Nat) (s t : Relation) (k : Nat), i ≠ j → rs[i]? = some s → rs[j]? = some t →
    s.overlaps[j]? = some k →
    s.orgCount + t.orgCount ≤ k + organizations.length ∧ k ≤ min s.orgCount t.orgCount

/-- The counts of a document fit together. -/
theorem coherent_relations (d : Document α) : Coherent d.organizations d.relations where
  length_overlaps := by
    rw [relations_eq, List.forall_mem_map]
    intro p _
    simp [relation]
  comm := by
    intro i j s t hs ht
    obtain ⟨c, hc, rfl⟩ := getElem?_relations.mp hs
    obtain ⟨other, hother, rfl⟩ := getElem?_relations.mp ht
    rw [getElem?_overlaps, getElem?_overlaps, hc, hother, Option.map_some, Option.map_some, sharedCount_comm]
    simp only [eq_comm]
  self := by
    intro i s hs
    obtain ⟨c, hc, rfl⟩ := getElem?_relations.mp hs
    rw [getElem?_overlaps, hc, Option.map_some, if_pos rfl]
  orgCount_eq := by
    rw [relations_eq, List.forall_mem_map]
    intro p _
    exact memberCount_eq d.organizations _
  overlaps_eq := by
    intro i j s t hne hs ht
    obtain ⟨c, hc, rfl⟩ := getElem?_relations.mp hs
    obtain ⟨other, hother, rfl⟩ := getElem?_relations.mp ht
    rw [getElem?_overlaps, hother, Option.map_some, if_neg hne, sharedCount_eq]
    rfl
  bounds := by
    intro i j s t k hne hs ht hk
    obtain ⟨c, hc, rfl⟩ := getElem?_relations.mp hs
    obtain ⟨other, hother, rfl⟩ := getElem?_relations.mp ht
    rw [getElem?_overlaps, hother, Option.map_some, if_neg hne, Option.some.injEq] at hk
    subst hk
    have hshared := sharedCount_le_left d.organizations c.name other.name
    have hshared' := sharedCount_le_left d.organizations other.name c.name
    -- The count is at most that of either category, since it does not matter which one comes first.
    rw [sharedCount_comm] at hshared'
    exact ⟨memberCount_add_memberCount_le d.organizations c.name other.name,
      Nat.le_min.mpr ⟨hshared, hshared'⟩⟩

/-- Counts do not depend on the order of organizations. -/
theorem relations_of_perm (d : Document α) {organizations : List Organization}
    (h : organizations.Perm d.organizations) : { d with organizations }.relations = d.relations := by
  simp only [relations, memberCount, sharedCount, h.countP_eq]

/-- The counts of two lists of organizations add up. -/
theorem relations_append (d : Document α) (more : List Organization) :
    { d with organizations := d.organizations ++ more }.relations
      = List.zipWith Relation.plus d.relations { d with organizations := more }.relations := by
  rw [relations_eq, relations_eq, relations_eq, List.zipWith_map, List.zipWith_self]
  refine List.map_congr_left fun p _ => ?_
  simp only [relation, Relation.plus, memberCount_append, List.zipWith_map, List.zipWith_self]
  congr 1
  refine List.map_congr_left fun q _ => ?_
  split
  · rfl
  · exact sharedCount_append d.organizations more _ _

/-- There is an entry for each category, in order, and the counts of all fit together. They do not depend on
the order of organizations, and those of two lists of organizations add up. -/
theorem relations_coherent (d : Document α) :
    (d.relations.map fun s => (s.index, s.name, s.color))
        = (d.categories.zipIdx.map fun (c, i) => (i, c.name, c.color)) ∧
      Coherent d.organizations d.relations ∧
      (∀ organizations, organizations.Perm d.organizations →
        { d with organizations }.relations = d.relations) ∧
      ∀ more, { d with organizations := d.organizations ++ more }.relations
        = List.zipWith Relation.plus d.relations { d with organizations := more }.relations := by
  refine ⟨?_, coherent_relations d, fun _ h => relations_of_perm d h, relations_append d⟩
  rw [relations_eq, List.map_map]
  rfl

end

end Document
end VennDiagram
