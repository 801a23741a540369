import VennDiagram.Proofs.Formula.Decide
import VennDiagram.Proofs.Formula.Machine

/-!
# `VennDiagram.Proofs.Formula.Consistency`: what the counters say in every state

In every state of a search the trail gives values to the first variables, in order, and every number in
the counters is the one that these values give it (`Fits`). A try puts one more decision on the trail
(`Fits.push`), and taking the value of the newest decision away leads back to what was there before
(`Fits.pop`); so each step keeps this up (`Step.consistent`). It does not matter which clauses there are:
they may repeat literals, hold a variable in both signs or name variables that are not allocated.

A search without an empty clause goes on only from where no clause is false (`State.Sound`,
`Step.sound`). While it goes back, this is known of the trail below the newest decision, which is the one
that failed. That is what a try starts from, so that its flag is right.

`counters_faithful` puts both together.
-/

set_option autoImplicit false

namespace VennDiagram.Search

variable {f : Formula} {s s' : State} {tried : List (List Bool)} {d : Decision}
  {trail : List Decision} {p : Progress}

/-- A node is as long as its trail. -/
@[simp] theorem length_nodeOf (trail : List Decision) : (nodeOf trail).length = trail.length := by
  simp [nodeOf]

/-! ### Counters that fit a trail -/

/-- The trail gives the first variables their values in order, and the counters are those of these
values. -/
structure Fits (f : Formula) (trail : List Decision) (p : Progress) : Prop where
  trail_eq : trail = trailOf (nodeOf trail)
  length_le : trail.length ≤ f.numVars
  counters_eq : p.counters = .under f.numVars f.clauses (.ofList (nodeOf trail))

/-- An empty trail and counters without a value. -/
theorem fits_nil (f : Formula) (e : Effort) :
    Fits f [] ⟨.blank f.numVars f.clauses.length, e⟩ where
  trail_eq := rfl
  length_le := Nat.zero_le _
  counters_eq := Counters.blank_eq_under f.numVars f.clauses

/-- The newest decision is about the last of the variables that have values. -/
theorem Fits.var_eq (h : Fits f (d :: trail) p) : d.var = trail.length + 1 := by
  have htrail := h.trail_eq
  rw [nodeOf_cons, trailOf_append_singleton, length_nodeOf] at htrail
  exact congrArg Decision.var (List.cons.inj htrail).1

/-- A try puts a decision on the trail, whether it makes a clause false or not. -/
theorem Fits.push (h : Fits f trail p) (hvar : d.var = trail.length + 1)
    (hroom : trail.length < f.numVars) :
    Fits f (d :: trail) (p.decide (.ofClauses f.numVars f.clauses) d.var d.value).1 where
  trail_eq := by
    rw [nodeOf_cons, trailOf_append_singleton, length_nodeOf, ← h.trail_eq, ← hvar]
  length_le := hroom
  counters_eq := by
    have hfree := Assignment.ofList_length_add_one (nodeOf trail)
    rw [length_nodeOf] at hfree
    show (p.counters.assign _ d.var d.value).1 = _
    rw [h.counters_eq, hvar, Counters.assign_under f.clauses hroom hfree, nodeOf_cons,
      Assignment.ofList_append_singleton, length_nodeOf]

/-- Taking the newest value away takes the decision off the trail. -/
theorem Fits.pop (h : Fits f (d :: trail) p) (e : Effort) :
    Fits f trail ⟨p.counters.unassign (.ofClauses f.numVars f.clauses) d.var, e⟩ where
  trail_eq := by
    have htrail := h.trail_eq
    rw [nodeOf_cons, trailOf_append_singleton] at htrail
    exact (List.cons.inj htrail).2
  length_le := Nat.le_of_succ_le h.length_le
  counters_eq := by
    have hfree := Assignment.ofList_length_add_one (nodeOf trail)
    have hroom : trail.length + 1 ≤ f.numVars := h.length_le
    rw [length_nodeOf] at hfree
    show p.counters.unassign _ d.var = _
    rw [h.counters_eq, h.var_eq, nodeOf_cons, Assignment.ofList_append_singleton, length_nodeOf,
      Counters.unassign_under hroom hfree]

/-! ### What follows for the values -/

/-- The table of values gives back the values of the trail, and no others. -/
theorem Fits.value?_eq (h : Fits f trail p) :
    p.counters.value? = Assignment.ofList (nodeOf trail) := by
  rw [h.counters_eq]
  refine Counters.value?_under_eq fun var hbeyond => ?_
  -- The values of the trail end before the allocated variables do.
  have hlength := h.length_le
  rw [← Option.not_isSome_iff_eq_none, Assignment.covers_ofList, length_nodeOf]
  omega

/-- The variables with values are those that the trail counts up. -/
theorem Fits.covers (h : Fits f trail p) : Assignment.Covers p.counters.value? trail.length := by
  rw [h.value?_eq, ← length_nodeOf]
  exact Assignment.covers_ofList _

/-- The variables of a trail, the oldest first. -/
theorem Fits.map_var (h : Fits f trail p) :
    (trail.map Decision.var).reverse = List.range' 1 trail.length := by
  rw [h.trail_eq, map_var_trailOf, length_trailOf]

/-- Every decision of the trail is in force. -/
theorem Fits.value?_of_mem (h : Fits f trail p) (hd : d ∈ trail) :
    p.counters.value? d.var = some d.value := by
  have hmem : d ∈ trailOf (nodeOf trail) := by
    rw [← h.trail_eq]
    exact hd
  rw [trailOf, List.mem_reverse] at hmem
  obtain ⟨⟨value, var⟩, hplace, rfl⟩ := List.mem_map.mp hmem
  obtain ⟨hle, hvalue⟩ := List.mk_mem_zipIdx_iff_le_and_getElem?_sub.mp hplace
  obtain ⟨i, rfl⟩ : ∃ i, var = i + 1 := ⟨var - 1, by omega⟩
  rw [h.value?_eq]
  exact hvalue

/-- Every number is the one that the values in the table give it. -/
theorem Fits.counters_eq_under (h : Fits f trail p) :
    p.counters = .under f.numVars f.clauses p.counters.value? := by
  rw [h.value?_eq]
  exact h.counters_eq

/-! ### Every state -/

/-- The counters fit the trail. A decision that is about to be made is about the next variable. -/
def State.Consistent (f : Formula) : State → Prop
  | .onward trail p => Fits f trail p
  | .trying d trail p => Fits f trail p ∧ d.var = trail.length + 1 ∧ trail.length < f.numVars
  | .back trail p => Fits f trail p
  | .stopped (some trail) p => Fits f trail p
  | .stopped none p => Fits f [] p

/-- A step leaves a consistent search consistent. -/
theorem Step.consistent (h : Step f s s') (hs : s.Consistent f) : s'.Consistent f := by
  cases h with
  | finish hstop => exact hs
  | choose hopen hroom => exact ⟨hs, rfl, hroom⟩
  | enter => exact hs.1.push hs.2.1 hs.2.2
  | clash => exact hs.1.push hs.2.1 hs.2.2
  | flip => exact ⟨hs.pop _, hs.var_eq, hs.length_le⟩
  | giveUp => exact hs.pop _
  | fail => exact hs

/-- Every search that is reached is consistent. -/
theorem Reached.consistent (h : Reached f tried s) : s.Consistent f := by
  induction h with
  | start => exact fits_nil f _
  | step _ hstep ih => exact hstep.consistent ih

/-- In every state the counters fit some trail. -/
theorem State.Consistent.exists_fits (h : s.Consistent f) : ∃ trail, Fits f trail s.progress := by
  cases s with
  | onward trail p => exact ⟨trail, h⟩
  | trying d trail p => exact ⟨trail, h.1⟩
  | back trail p => exact ⟨trail, h⟩
  | stopped answer p =>
    cases answer with
    | none => exact ⟨[], h⟩
    | some trail => exact ⟨trail, h⟩

/-! ### Tries start where no clause is false -/

/-- No clause is false under the values that the search goes on from. While it goes back, these are the
values below the decision that has failed. -/
def State.Sound (f : Formula) : State → Prop
  | .onward trail _ => (Assignment.ofList (nodeOf trail)).refutes f.clauses = false
  | .trying _ trail _ => (Assignment.ofList (nodeOf trail)).refutes f.clauses = false
  | .back trail _ => (Assignment.ofList (nodeOf trail.tail)).refutes f.clauses = false
  | .stopped _ _ => True

/-- No clause is false under the values of a trail if none is under those of a longer one. -/
theorem refutes_nodeOf_of_cons
    (h : (Assignment.ofList (nodeOf (d :: trail))).refutes f.clauses = false) :
    (Assignment.ofList (nodeOf trail)).refutes f.clauses = false := by
  by_contra hrefutes
  have hprefix : nodeOf trail <+: nodeOf (d :: trail) := by
    rw [nodeOf_cons]
    exact List.prefix_append _ _
  have hlonger := Assignment.refutes_of_extends (Assignment.extends_ofList hprefix)
    (Bool.eq_true_of_not_eq_false hrefutes)
  exact absurd (hlonger.symm.trans h) (by decide)

/-- The flag of a try tells whether a clause is false under the values with the new one. -/
theorem Fits.flag_eq (h : Fits f trail p) (hvar : d.var = trail.length + 1)
    (hroom : trail.length < f.numVars)
    (hsound : (Assignment.ofList (nodeOf trail)).refutes f.clauses = false) :
    (p.counters.assign (.ofClauses f.numVars f.clauses) d.var d.value).2
      = !(Assignment.ofList (nodeOf (d :: trail))).refutes f.clauses := by
  have hfree := Assignment.ofList_length_add_one (nodeOf trail)
  rw [length_nodeOf] at hfree
  rw [h.counters_eq, hvar, Counters.assign_under_snd hroom hfree d.value hsound, nodeOf_cons,
    Assignment.ofList_append_singleton, length_nodeOf]

/-- A step gives no verdict that is wrong. -/
theorem Step.sound (h : Step f s s') (hs : s.Consistent f) (hsound : s.Sound f) : s'.Sound f := by
  cases h with
  | finish => trivial
  | choose => exact hsound
  | enter hflag => exact Bool.not_inj (hflag.symm.trans (hs.1.flag_eq hs.2.1 hs.2.2 hsound)).symm
  | clash => exact hsound
  | flip => exact hsound
  | @giveUp var trail p =>
    show (Assignment.ofList (nodeOf trail.tail)).refutes f.clauses = false
    cases trail with
    | nil => exact hsound
    | cons d rest => exact refutes_nodeOf_of_cons hsound
  | fail => trivial

/-- No clause is empty. -/
theorem any_isEmpty_eq_false (hempty : [] ∉ f.clauses) : f.clauses.any List.isEmpty = false := by
  rw [List.any_eq_false]
  intro c hc hisEmpty
  exact hempty (List.isEmpty_iff.mp hisEmpty ▸ hc)

/-- No verdict that is reached is wrong. -/
theorem Reached.sound (h : Reached f tried s) (hempty : [] ∉ f.clauses) : s.Sound f := by
  induction h with
  | start => exact (Formula.refutes_nil f).trans (any_isEmpty_eq_false hempty)
  | step hs hstep ih => exact hstep.sound hs.consistent ih

/-! ### Main result -/

/-- The counters tell what the values in their table do to the clauses. -/
structure Counters.Faithful (clauses : List Clause) (s : Counters) : Prop where
  /-- For each clause the number of its true literals, repeated ones counted. -/
  trueCount_eq : s.trueCount = (clauses.map (Clause.tally s.value? true)).toArray
  /-- For each clause the number of its false literals, repeated ones counted. -/
  falseCount_eq : s.falseCount = (clauses.map (Clause.tally s.value? false)).toArray
  satisfied_eq : s.satisfied = clauses.countP fun c => c.eval s.value? = some true
  true_iff : ∀ i c, clauses[i]? = some c →
    (0 < s.trueCount.getD i 0 ↔ c.eval s.value? = some true)
  false_iff : ∀ i c, clauses[i]? = some c →
    (s.falseCount.getD i 0 = c.length ↔ c.eval s.value? = some false)

/-- Counters that fit an assignment say of each clause what it is under it. -/
theorem Fits.faithful (h : Fits f trail p) : p.counters.Faithful f.clauses := by
  have hunder := h.counters_eq_under
  have htrue : p.counters.trueCount
      = (f.clauses.map (Clause.tally p.counters.value? true)).toArray :=
    congrArg Counters.trueCount hunder
  have hfalse : p.counters.falseCount
      = (f.clauses.map (Clause.tally p.counters.value? false)).toArray :=
    congrArg Counters.falseCount hunder
  refine ⟨htrue, hfalse, ?_, ?_, ?_⟩
  · exact (congrArg Counters.satisfied hunder).trans Counters.satisfied_under
  · intro i c hc
    rw [← Clause.tally_true_pos_iff, htrue]
    simp [Array.getD_eq_getD_getElem?, hc]
  · intro i c hc
    rw [← Clause.tally_false_eq_length_iff, hfalse]
    simp [Array.getD_eq_getD_getElem?, hc]

/-- A try starts where no clause is false, and its flag tells whether one is false afterwards. -/
theorem Fits.flag_eq_false_iff (h : Fits f trail p) (hvar : d.var = trail.length + 1)
    (hroom : trail.length < f.numVars)
    (hsound : (Assignment.ofList (nodeOf trail)).refutes f.clauses = false) :
    (p.counters.assign (.ofClauses f.numVars f.clauses) d.var d.value).2 = false ↔
      ∃ c ∈ f.clauses, c.eval
        (p.counters.assign (.ofClauses f.numVars f.clauses) d.var d.value).1.value? = some false := by
  have hpush : Fits f (d :: trail)
      (p.decide (.ofClauses f.numVars f.clauses) d.var d.value).1 := h.push hvar hroom
  have hvalue : (p.counters.assign (.ofClauses f.numVars f.clauses) d.var d.value).1.value?
      = Assignment.ofList (nodeOf (d :: trail)) := hpush.value?_eq
  rw [h.flag_eq hvar hroom hsound, hvalue, Bool.not_eq_false', Assignment.refutes_eq_true_iff]

/-- In every state of a run, the counters tell what the values in force do to the clauses. At the
condition of the outer loop, the variables with values are those of the trail, which counts them up from
one. If there is no empty clause, each try starts where no clause is false, and answers that it failed
exactly if a clause is false afterwards. -/
theorem counters_faithful (f : Formula) (tried : List (List Bool)) (s : State)
    (h : Reached f tried s) :
    s.rest f = run f ∧
    s.progress.counters.Faithful f.clauses ∧
    (∀ trail p, s = .onward trail p →
      (trail.map Decision.var).reverse = List.range' 1 trail.length ∧
      Assignment.Covers p.counters.value? trail.length ∧
      ∀ d ∈ trail, p.counters.value? d.var = some d.value) ∧
    ([] ∉ f.clauses → ∀ d trail p, s = .trying d trail p →
      (∀ c ∈ f.clauses, c.eval p.counters.value? ≠ some false) ∧
      ((p.counters.assign (.ofClauses f.numVars f.clauses) d.var d.value).2 = false ↔
        ∃ c ∈ f.clauses, c.eval
          (p.counters.assign (.ofClauses f.numVars f.clauses) d.var d.value).1.value?
            = some false)) := by
  have hconsistent := h.consistent
  obtain ⟨_, hfits⟩ := hconsistent.exists_fits
  refine ⟨h.rest_eq, hfits.faithful, ?_, ?_⟩
  · rintro trail p rfl
    exact ⟨hconsistent.map_var, hconsistent.covers, fun d hd => hconsistent.value?_of_mem hd⟩
  · rintro hempty d trail p rfl
    obtain ⟨hfits, hvar, hroom⟩ := hconsistent
    -- Without an empty clause no value makes a clause false unnoticed, so before the try none was false.
    have hsound := h.sound hempty
    refine ⟨?_, hfits.flag_eq_false_iff hvar hroom hsound⟩
    rw [hfits.value?_eq]
    exact Assignment.refutes_eq_false_iff.mp hsound

/-- The second try makes a clause false that repeats a literal. The other clause names a variable that is
not allocated. -/
theorem counters_faithful_repeated :
    let f : Formula := ⟨2, [[.no 1, .no 2, .no 1], [.no 1, .yes 3, .yes 2]]⟩
    ∃ p : Progress,
      Reached f [[true]] (.trying ⟨2, true⟩ [⟨1, true⟩] p) ∧ [] ∉ f.clauses ∧
      p.counters.Faithful f.clauses ∧
      p.counters.falseCount = #[2, 1] ∧
      (∀ c ∈ f.clauses, c.eval p.counters.value? ≠ some false) ∧
      (p.counters.assign (.ofClauses f.numVars f.clauses) 2 true).2 = false := by
  intro f
  have hfirst := Reached.start.step (.choose (by decide +kernel) (by decide) : Step f (.start f) _)
  have hsecond := (hfirst.step (.enter (by decide +kernel))).step
    (.choose (by decide +kernel) (by decide))
  have hempty : [] ∉ f.clauses := by decide
  obtain ⟨-, hfaithful, -, htries⟩ := counters_faithful f _ _ hsecond
  exact ⟨_, hsecond, hempty, hfaithful, by decide +kernel, (htries hempty _ _ _ rfl).1,
    by decide +kernel⟩

end VennDiagram.Search
