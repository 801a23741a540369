import Mathlib.Data.List.Induction
import Mathlib.Data.Nat.SuccPred
import VennDiagram.Formula.Search
import VennDiagram.Proofs.Formula.Truth

/-!
# `VennDiagram.Proofs.Formula.Counters`: the counters of a search are those of its assignment

The search never evaluates a clause. It keeps, for each clause, the number of its true and of its false
literals, and changes these numbers when a variable gets or loses its value. `Counters.under` is the state
that belongs to an assignment: every number in it is read off the clauses. The theorems say that the
search always stands in such a state.

* `Occurrences.count_madeTrue_ofClauses`: the list of clauses kept for a variable and a value names a
  clause as often as the literal stands in it.
* `Counters.assign_under` and `Counters.unassign_under`: giving a free variable a value, and taking the
  value of a variable away, lead from the state of an assignment to the state of the new assignment.
* `Counters.assign_under_snd`: while no clause is false, `assign` answers whether one becomes false.
* `Counters.allSatisfied_under`: the number of satisfied clauses tells whether all of them are true.

A clause that names a variable beyond `numVars` has a literal that is never true or false, so it is
counted like any other clause.
-/

set_option autoImplicit false

namespace VennDiagram.Search

/-! ### Arrays of counts -/

/-- The elements at the listed places, changed once for each time a place is listed. -/
def modifyAll {α : Type} (f : α → α) (places : List Nat) (xs : Array α) : Array α :=
  places.foldl (fun xs k => xs.modify k f) xs

/-- An element is changed as often as its place is listed. -/
theorem getElem?_modifyAll {α : Type} (f : α → α) (places : List Nat) (xs : Array α) (i : Nat) :
    (modifyAll f places xs)[i]? = xs[i]?.map (Nat.iterate f (places.count i)) := by
  induction places generalizing xs with
  | nil => exact Option.map_id'.symm
  | cons k places ih =>
    show (modifyAll f places (xs.modify k f))[i]? = _
    rw [ih, Array.getElem?_modify, List.count_cons]
    by_cases hk : k = i
    · subst hk
      simp only [if_true, beq_self_eq_true, Option.map_map]
      rfl
    · simp [hk]

/-- A count rises by one for each time its place is listed. -/
theorem getD_modifyAll_add (places : List Nat) {xs : Array Nat} {k : Nat} (hk : k < xs.size) :
    (modifyAll (· + 1) places xs).getD k 0 = xs.getD k 0 + places.count k := by
  simp only [Array.getD_eq_getD_getElem?, getElem?_modifyAll, Array.getElem?_eq_getElem hk,
    Option.map_some, Option.getD_some]
  exact Nat.succ_iterate _ _

/-- Changing one element changes the number of elements with a property by that element alone. -/
theorem countP_modify {α : Type} (p : α → Bool) (f : α → α) {xs : Array α} {k : Nat}
    (hk : k < xs.size) :
    (xs.modify k f).countP p + (if p xs[k] then 1 else 0)
      = xs.countP p + (if p (f xs[k]) then 1 else 0) := by
  have hset : xs.modify k f = xs.set k (f xs[k]) := by
    ext i hi hi'
    · simp
    · simp only [Array.getElem_modify, Array.getElem_set]
      by_cases h : k = i
      · subst h
        rfl
      · simp [h]
  -- `Array.countP_set` takes the old element out of the count, which has to be there to be taken out.
  have hpos : p xs[k] = true → 0 < xs.countP p := fun h =>
    Array.countP_pos_iff.mpr ⟨xs[k], Array.getElem_mem hk, h⟩
  rw [hset, Array.countP_set hk]
  by_cases h : p xs[k] = true
  · have := hpos h
    rw [if_pos h]
    omega
  · rw [if_neg h]
    omega

/-! ### Occurrences -/

namespace Occurrences

/-- A value makes those literals false that the opposite value makes true. -/
theorem madeFalse_eq (o : Occurrences) (var : Nat) (value : Bool) :
    o.madeFalse var value = o.madeTrue var (!value) := by
  cases value <;> rfl

/-- There is a list of places for each of the variables `0 .. n`. -/
def Spans (o : Occurrences) (n : Nat) : Prop :=
  o.positive.size = n + 1 ∧ o.negative.size = n + 1

/-- Noting a literal keeps the tables as wide as the variables. -/
theorem spans_note {o : Occurrences} {n : Nat} (h : o.Spans n) (clause : Nat) (l : Literal) :
    (o.note clause l).Spans n := by
  unfold note
  split
  · exact ⟨Array.size_modify.trans h.1, h.2⟩
  · exact ⟨h.1, Array.size_modify.trans h.2⟩

/-- One more entry in the list of a variable. -/
theorem getD_modify_cons (lists : Array (List Nat)) {var : Nat} (hvar : var < lists.size)
    (clause w : Nat) :
    (lists.modify w (clause :: ·)).getD var []
      = if w = var then clause :: lists.getD var [] else lists.getD var [] := by
  simp only [Array.getD_eq_getD_getElem?, Array.getElem?_modify]
  by_cases hw : w = var
  · simp [hw, hvar]
  · simp [hw]

/-- One more place shows in the list of its literal alone. -/
theorem count_madeTrue_note {o : Occurrences} {n var : Nat} (ho : o.Spans n) (hvar : var ≤ n)
    (value : Bool) (clause : Nat) (l : Literal) (i : Nat) :
    ((o.note clause l).madeTrue var value).count i
      = (o.madeTrue var value).count i + if clause = i ∧ l = ⟨var, value⟩ then 1 else 0 := by
  obtain ⟨w, positive⟩ := l
  have hpos := getD_modify_cons o.positive (by rw [ho.1]; omega : var < _) clause w
  have hneg := getD_modify_cons o.negative (by rw [ho.2]; omega : var < _) clause w
  cases positive <;> cases value <;> simp [note, madeTrue, hpos, hneg] <;>
    by_cases hw : w = var <;> simp [hw, List.count_cons]

/-- The places of the literals of one clause. -/
theorem count_madeTrue_noteAll {n var : Nat} (hvar : var ≤ n) (value : Bool) (clause : Nat)
    (c : Clause) (i : Nat) {o : Occurrences} (ho : o.Spans n) :
    (c.foldl (fun o l => o.note clause l) o).Spans n ∧
      ((c.foldl (fun o l => o.note clause l) o).madeTrue var value).count i
        = (o.madeTrue var value).count i + if clause = i then c.count ⟨var, value⟩ else 0 := by
  induction c generalizing o with
  | nil => exact ⟨ho, by simp⟩
  | cons l c ih =>
    obtain ⟨hspans, hcount⟩ := ih (spans_note ho clause l)
    refine ⟨hspans, hcount.trans ?_⟩
    rw [count_madeTrue_note ho hvar, List.count_cons]
    by_cases hi : clause = i
    · by_cases hl : l = ⟨var, value⟩
      · simp [hi, hl]
        omega
      · simp [hi, hl]
    · simp [hi]

/-- The places of the literals of numbered clauses. -/
theorem count_madeTrue_foldl {n var : Nat} (hvar : var ≤ n) (value : Bool) (clauses : List Clause)
    (first i : Nat) {o : Occurrences} (ho : o.Spans n) :
    (((clauses.zipIdx first).foldl (fun o (c, number) => c.foldl (fun o l => o.note number l) o)
        o).madeTrue var value).count i
      = (o.madeTrue var value).count i
        + if first ≤ i then (clauses[i - first]?.getD []).count ⟨var, value⟩ else 0 := by
  induction clauses generalizing first o with
  | nil => simp
  | cons c rest ih =>
    obtain ⟨hspans, hcount⟩ := count_madeTrue_noteAll hvar value first c i ho
    rw [List.zipIdx_cons, List.foldl_cons, ih (first + 1) hspans, hcount]
    -- The head has the number `first`, and the clauses after it the numbers from `first + 1` on.
    rcases Nat.lt_trichotomy i first with hlt | rfl | hgt
    · rw [if_neg (by omega), if_neg (by omega), if_neg (by omega)]
    · rw [if_pos rfl, if_neg (by omega), if_pos (Nat.le_refl i), Nat.sub_self]
      rfl
    · obtain ⟨k, rfl⟩ : ∃ k, i = first + 1 + k := ⟨i - first - 1, by omega⟩
      rw [if_neg (by omega), if_pos (by omega), if_pos (by omega),
        show first + 1 + k - first = k + 1 by omega, Nat.add_sub_cancel_left,
        List.getElem?_cons_succ]
      omega

/-- The list kept for a variable and a value names a clause as often as the literal stands in it. -/
theorem count_madeTrue_ofClauses {n var : Nat} (hvar : var ≤ n) (clauses : List Clause)
    (value : Bool) (i : Nat) :
    ((ofClauses n clauses).madeTrue var value).count i
      = (clauses[i]?.getD []).count ⟨var, value⟩ := by
  rw [ofClauses, count_madeTrue_foldl hvar value clauses 0 i ⟨by simp, by simp⟩]
  have hblank : (({ lengths := (clauses.map List.length).toArray
                    positive := Array.replicate (n + 1) []
                    negative := Array.replicate (n + 1) [] } : Occurrences).madeTrue
      var value).count i = 0 := by
    cases value <;> simp [madeTrue, Array.getD_eq_getD_getElem?, Nat.lt_succ_of_le hvar]
  rw [hblank]
  simp

/-- Only clauses that are there are listed. -/
theorem lt_length_of_mem_madeTrue {n var : Nat} (hvar : var ≤ n) {clauses : List Clause}
    {value : Bool} {i : Nat} (hi : i ∈ (ofClauses n clauses).madeTrue var value) :
    i < clauses.length := by
  have hcount := List.count_pos_iff.mpr hi
  rw [count_madeTrue_ofClauses hvar] at hcount
  by_contra hge
  simp [List.getElem?_eq_none (Nat.le_of_not_lt hge)] at hcount

/-- The lengths are those of the clauses, in order. -/
theorem lengths_ofClauses (n : Nat) (clauses : List Clause) :
    (ofClauses n clauses).lengths = (clauses.map List.length).toArray := by
  have hnote : ∀ (c : Clause) (number : Nat) (o : Occurrences),
      (c.foldl (fun o l => o.note number l) o).lengths = o.lengths := by
    intro c number
    induction c with
    | nil => intro o; rfl
    | cons l c ih =>
      intro o
      rw [List.foldl_cons, ih]
      unfold note
      split <;> rfl
  have hall : ∀ (numbered : List (Clause × Nat)) (o : Occurrences),
      (numbered.foldl (fun o (c, number) => c.foldl (fun o l => o.note number l) o) o).lengths
        = o.lengths := by
    intro numbered
    induction numbered with
    | nil => intro o; rfl
    | cons p rest ih =>
      intro o
      rw [List.foldl_cons, ih]
      exact hnote p.1 p.2 o
  exact hall _ _

/-- So the length at an index is that of the clause there. -/
theorem getD_lengths_ofClauses {n k : Nat} {clauses : List Clause} (hk : k < clauses.length) :
    (ofClauses n clauses).lengths.getD k 0 = clauses[k].length := by
  simp [lengths_ofClauses, Array.getD_eq_getD_getElem?, hk]

end Occurrences

/-! ### Counters -/

namespace Counters

/-- Counters whose number of satisfied clauses is the number of clauses with a true literal. -/
def ofCounts (values : Array (Option Bool)) (trueCount falseCount : Array Nat) : Counters :=
  ⟨values, trueCount, falseCount, trueCount.countP (0 < ·)⟩

/-- The state that belongs to an assignment. -/
def under (numVars : Nat) (clauses : List Clause) (a : Assignment) : Counters :=
  ofCounts ((List.range (numVars + 1)).map a).toArray (clauses.map (Clause.tally a true)).toArray
    (clauses.map (Clause.tally a false)).toArray

variable {values : Array (Option Bool)} {trueCount falseCount : Array Nat}

/-- A clause with one more true literal has its count of them raised. -/
theorem gainTrue_ofCounts {clause : Nat} (h : clause < trueCount.size) :
    (ofCounts values trueCount falseCount).gainTrue clause
      = ofCounts values (trueCount.modify clause (· + 1)) falseCount := by
  have hcount := countP_modify (0 < ·) (· + 1) h
  have hget : trueCount.getD clause 0 = trueCount[clause] := by
    simp [Array.getD_eq_getD_getElem?, h]
  simp only [gainTrue, ofCounts, hget]
  congr 1
  -- Only the first true literal makes the clause a satisfied one.
  by_cases hzero : trueCount[clause] = 0
  · simp [hzero] at hcount ⊢
    omega
  · have hpos : 0 < trueCount[clause] := by omega
    simp [hzero, hpos] at hcount ⊢
    omega

/-- A clause without a true literal loses none, also if it is not there at all. -/
theorem loseTrue_ofCounts (clause : Nat) :
    (ofCounts values trueCount falseCount).loseTrue clause
      = ofCounts values (trueCount.modify clause (· - 1)) falseCount := by
  by_cases h : clause < trueCount.size
  · have hcount := countP_modify (0 < ·) (· - 1) h
    have hget : trueCount.getD clause 0 = trueCount[clause] := by
      simp [Array.getD_eq_getD_getElem?, h]
    simp only [loseTrue, ofCounts, hget]
    congr 1
    -- Only the last true literal takes the clause out of the satisfied ones.
    by_cases hone : trueCount[clause] = 1
    · simp [hone] at hcount ⊢
      omega
    · by_cases hzero : trueCount[clause] = 0
      · simp [hzero] at hcount ⊢
        omega
      · have hpos : 0 < trueCount[clause] := by omega
        have hpos' : 0 < trueCount[clause] - 1 := by omega
        simp [hone, hpos, hpos'] at hcount ⊢
        omega
  · have hsame : trueCount.modify clause (· - 1) = trueCount := by
      ext i hi hi'
      · simp
      · rw [Array.getElem_modify, if_neg (by omega)]
    have hget : trueCount.getD clause 0 = 0 := by
      simp [Array.getD_eq_getD_getElem?, Nat.le_of_not_lt h]
    simp [loseTrue, ofCounts, hget, hsame]

/-- Literals that become true, in clauses that are there. -/
theorem foldl_gainTrue_ofCounts {places : List Nat} (h : ∀ k ∈ places, k < trueCount.size) :
    places.foldl gainTrue (ofCounts values trueCount falseCount)
      = ofCounts values (modifyAll (· + 1) places trueCount) falseCount := by
  induction places generalizing trueCount with
  | nil => rfl
  | cons k places ih =>
    rw [List.foldl_cons, gainTrue_ofCounts (h k List.mem_cons_self)]
    exact ih fun i hi => by
      rw [Array.size_modify]
      exact h i (List.mem_cons_of_mem k hi)

/-- Literals that are no longer true. -/
theorem foldl_loseTrue_ofCounts (places : List Nat) :
    places.foldl loseTrue (ofCounts values trueCount falseCount)
      = ofCounts values (modifyAll (· - 1) places trueCount) falseCount := by
  induction places generalizing trueCount with
  | nil => rfl
  | cons k places ih =>
    rw [List.foldl_cons, loseTrue_ofCounts]
    exact ih

/-- Literals that are no longer false. -/
theorem foldl_loseFalse_ofCounts (places : List Nat) :
    places.foldl loseFalse (ofCounts values trueCount falseCount)
      = ofCounts values trueCount (modifyAll (· - 1) places falseCount) := by
  induction places generalizing falseCount with
  | nil => rfl
  | cons k places ih => exact ih

/-- Literals that become false. -/
theorem foldl_gainFalse_ofCounts (places : List Nat) :
    places.foldl gainFalse (ofCounts values trueCount falseCount)
      = ofCounts values trueCount (modifyAll (· + 1) places falseCount) := by
  induction places generalizing falseCount with
  | nil => rfl
  | cons k places ih => exact ih

/-- The counters do not depend on the flag. -/
theorem gainAllFalse_fst (o : Occurrences) (s : Counters) (places : List Nat) :
    (s.gainAllFalse o places).1 = places.foldl gainFalse s :=
  (List.foldl_hom Prod.fst fun _ _ => rfl).symm

/-- The flag after one more place is the flag before and one more comparison. -/
theorem gainAllFalse_concat_snd (o : Occurrences) (places : List Nat) (k : Nat) :
    ((ofCounts values trueCount falseCount).gainAllFalse o (places ++ [k])).2
      = (((ofCounts values trueCount falseCount).gainAllFalse o places).2
          && !((modifyAll (· + 1) (places ++ [k]) falseCount).getD k 0 == o.lengths.getD k 0)) := by
  have hfst : ((ofCounts values trueCount falseCount).gainAllFalse o (places ++ [k])).1
      = ofCounts values trueCount (modifyAll (· + 1) (places ++ [k]) falseCount) := by
    rw [gainAllFalse_fst, foldl_gainFalse_ofCounts]
  unfold gainAllFalse at hfst ⊢
  rw [List.foldl_append] at hfst ⊢
  simp only [List.foldl_cons, List.foldl_nil] at hfst ⊢
  rw [hfst]
  rfl

/-- The flag of `gainAllFalse`. Counts only rise, so a clause whose count does not pass its length can
only be violated by the last of its literals: the flag says that no listed clause has reached its
length at the end. -/
theorem gainAllFalse_ofCounts_snd (o : Occurrences) (places : List Nat)
    (hplaces : ∀ k ∈ places, k < falseCount.size)
    (hlengths : ∀ k ∈ places,
      (modifyAll (· + 1) places falseCount).getD k 0 ≤ o.lengths.getD k 0) :
    ((ofCounts values trueCount falseCount).gainAllFalse o places).2 = true ↔
      ∀ k ∈ places, (modifyAll (· + 1) places falseCount).getD k 0 ≠ o.lengths.getD k 0 := by
  induction places using List.reverseRecOn with
  | nil => simp [gainAllFalse]
  | append_singleton before k ih =>
    have hbefore : ∀ i ∈ before, i < falseCount.size := fun i hi =>
      hplaces i (List.mem_append_left _ hi)
    have hlast : ∀ i ∈ before,
        (modifyAll (· + 1) (before ++ [k]) falseCount).getD i 0
          = (modifyAll (· + 1) before falseCount).getD i 0 + [k].count i := fun i hi => by
      rw [getD_modifyAll_add _ (hbefore i hi), getD_modifyAll_add _ (hbefore i hi),
        List.count_append, Nat.add_assoc]
    have hle : ∀ i ∈ before,
        (modifyAll (· + 1) before falseCount).getD i 0 + [k].count i ≤ o.lengths.getD i 0 :=
      fun i hi => (hlast i hi).symm.trans_le (hlengths i (List.mem_append_left _ hi))
    rw [gainAllFalse_concat_snd, Bool.and_eq_true,
      ih hbefore fun i hi => Nat.le_of_add_right_le (hle i hi)]
    simp only [Bool.not_eq_true', beq_eq_false_iff_ne, List.mem_append, List.mem_singleton]
    constructor
    · rintro ⟨hold, hnew⟩ i (hi | rfl)
      · by_cases hik : i = k
        · exact hik ▸ hnew
        · rw [hlast i hi, List.count_singleton, if_neg (by simpa using Ne.symm hik)]
          exact hold i hi
      · exact hnew
    · intro hall
      refine ⟨fun i hi heq => ?_, hall k (Or.inr rfl)⟩
      -- A clause that had reached its length before would have passed it, or been reached at the end.
      have hat := hall i (Or.inl hi)
      have hpast := hle i hi
      rw [hlast i hi] at hat
      omega

/-- Setting a value touches no count. -/
theorem setValue_ofCounts (var : Nat) (value : Option Bool) :
    (ofCounts values trueCount falseCount).setValue var value
      = ofCounts (values.setIfInBounds var value) trueCount falseCount := rfl

/-! ### The state of an assignment -/

section
variable {numVars : Nat} {clauses : List Clause} {a : Assignment} {var : Nat}

/-- An allocated variable has the value that the assignment gives it. -/
theorem value?_under (hvar : var ≤ numVars) : (under numVars clauses a).value? var = a var := by
  simp [value?, under, ofCounts, Nat.lt_succ_of_le hvar]

/-- The table ends with the allocated variables. -/
theorem value?_under_of_lt (hvar : numVars < var) : (under numVars clauses a).value? var = none := by
  have hout : (List.range (numVars + 1))[var]? = none :=
    List.getElem?_eq_none (by rw [List.length_range]; exact hvar)
  simp [value?, under, ofCounts, hout]

/-- An assignment of allocated variables can be read off the table again. -/
theorem value?_under_eq (h : ∀ var, numVars < var → a var = none) :
    (under numVars clauses a).value? = a := by
  funext var
  rcases Nat.lt_or_ge numVars var with hbeyond | hvar
  · rw [value?_under_of_lt hbeyond, h var hbeyond]
  · exact value?_under hvar

/-- The satisfied clauses are those that are true. -/
theorem satisfied_under :
    (under numVars clauses a).satisfied = clauses.countP fun c => c.eval a = some true := by
  show (clauses.map (Clause.tally a true)).toArray.countP (0 < ·) = _
  simp only [List.countP_toArray, List.countP_map]
  exact List.countP_congr fun c _ => by simp [Clause.tally_true_pos_iff]

/-- All clauses are counted as satisfied exactly when all of them are true. -/
theorem allSatisfied_under : (under numVars clauses a).allSatisfied = a.satisfies clauses := by
  have hsize : (under numVars clauses a).trueCount.size = clauses.length := by
    simp [under, ofCounts]
  rw [Bool.eq_iff_iff, Assignment.satisfies_eq_true_iff, allSatisfied, satisfied_under, hsize]
  simp only [beq_iff_eq, List.countP_eq_length, decide_eq_true_eq]

/-- No variable has a value at the start. -/
theorem blank_eq_under (numVars : Nat) (clauses : List Clause) :
    blank numVars clauses.length = under numVars clauses (Assignment.ofList []) := by
  have htally : ∀ t : Bool, Clause.tally (fun _ => none) t = fun _ => 0 := by
    intro t
    funext c
    simp [Clause.tally, Literal.eval]
  rw [Assignment.ofList_nil]
  simp [blank, under, ofCounts, htally, List.map_const', ← List.toArray_replicate,
    List.countP_replicate]

/-- The values after a variable got a new one. -/
theorem setIfInBounds_values (value : Option Bool) :
    ((List.range (numVars + 1)).map a).toArray.setIfInBounds var value
      = ((List.range (numVars + 1)).map (Function.update a var value)).toArray := by
  refine Array.ext_getElem? fun i => ?_
  rw [Array.getElem?_setIfInBounds]
  by_cases hi : var = i
  · subst hi
    by_cases hlt : var < numVars + 1 <;> simp [hlt]
  · rw [if_neg hi]
    by_cases hlt : i < numVars + 1
    · simp [hlt, Function.update_of_ne (Ne.symm hi)]
    · simp [hlt]

/-- The literals that get the truth `t` from a value, counted into every clause. -/
theorem modifyAll_add_tally (clauses : List Clause) (hvar : var ≤ numVars) (hfree : a var = none)
    (value t : Bool) :
    modifyAll (· + 1) ((Occurrences.ofClauses numVars clauses).madeTrue var (value == t))
        (clauses.map (Clause.tally a t)).toArray
      = (clauses.map (Clause.tally (Function.update a var (some value)) t)).toArray := by
  refine Array.ext_getElem? fun i => ?_
  rw [getElem?_modifyAll, Occurrences.count_madeTrue_ofClauses hvar]
  cases h : clauses[i]? with
  | none => simp [h]
  | some c =>
    simp only [List.getElem?_toArray, List.getElem?_map, h, Option.map_some, Option.getD_some,
      Clause.tally_update hfree]
    exact congrArg some (Nat.succ_iterate _ _)

/-- Taking the literals out again leaves what was there before. -/
theorem modifyAll_sub_tally (clauses : List Clause) (hvar : var ≤ numVars) (hfree : a var = none)
    (value t : Bool) :
    modifyAll (· - 1) ((Occurrences.ofClauses numVars clauses).madeTrue var (value == t))
        (clauses.map (Clause.tally (Function.update a var (some value)) t)).toArray
      = (clauses.map (Clause.tally a t)).toArray := by
  refine Array.ext_getElem? fun i => ?_
  rw [getElem?_modifyAll, Occurrences.count_madeTrue_ofClauses hvar]
  cases h : clauses[i]? with
  | none => simp [h]
  | some c =>
    simp only [List.getElem?_toArray, List.getElem?_map, h, Option.map_some, Option.getD_some,
      Clause.tally_update hfree]
    exact congrArg some ((Nat.pred_iterate _ _).trans (Nat.add_sub_cancel _ _))

/-- The clauses that a value lists are there. -/
theorem lt_size_of_mem_madeTrue (hvar : var ≤ numVars) (a : Assignment) (value t : Bool) {k : Nat}
    (hk : k ∈ (Occurrences.ofClauses numVars clauses).madeTrue var value) :
    k < (clauses.map (Clause.tally a t)).toArray.size := by
  simpa using Occurrences.lt_length_of_mem_madeTrue hvar hk

/-- Giving a free variable a value leads to the state of the assignment with that value. -/
theorem assign_under (clauses : List Clause) (hvar : var ≤ numVars) (hfree : a var = none)
    (value : Bool) :
    ((under numVars clauses a).assign (.ofClauses numVars clauses) var value).1
      = under numVars clauses (Function.update a var (some value)) := by
  have htrue := modifyAll_add_tally clauses hvar hfree value true
  have hfalse := modifyAll_add_tally clauses hvar hfree value false
  -- The value makes the literals that say it true, and those that say its opposite false.
  rw [beq_true] at htrue
  rw [beq_false] at hfalse
  rw [assign, Occurrences.madeFalse_eq, under, setValue_ofCounts,
    foldl_gainTrue_ofCounts fun k => lt_size_of_mem_madeTrue hvar a value true,
    gainAllFalse_fst, foldl_gainFalse_ofCounts, htrue, hfalse, setIfInBounds_values, under]

/-- While no clause is false, `assign` answers whether that is still so. A clause that becomes false has
lost its last open literal just now, so it is among the clauses that the value lists. -/
theorem assign_under_snd (hvar : var ≤ numVars) (hfree : a var = none) (value : Bool)
    (hsound : a.refutes clauses = false) :
    ((under numVars clauses a).assign (.ofClauses numVars clauses) var value).2
      = !Assignment.refutes (Function.update a var (some value)) clauses := by
  have htally : ∀ (k : Nat) (hk : k < clauses.length),
      (modifyAll (· + 1) ((Occurrences.ofClauses numVars clauses).madeTrue var !value)
        (clauses.map (Clause.tally a false)).toArray).getD k 0
        = Clause.tally (Function.update a var (some value)) false clauses[k] := fun k hk => by
    rw [← beq_false, modifyAll_add_tally clauses hvar hfree]
    simp [Array.getD_eq_getD_getElem?, hk]
  have hle : ∀ k ∈ (Occurrences.ofClauses numVars clauses).madeTrue var !value,
      (modifyAll (· + 1) ((Occurrences.ofClauses numVars clauses).madeTrue var !value)
          (clauses.map (Clause.tally a false)).toArray).getD k 0
        ≤ (Occurrences.ofClauses numVars clauses).lengths.getD k 0 := fun k hk => by
    have hlt := Occurrences.lt_length_of_mem_madeTrue hvar hk
    rw [htally k hlt, Occurrences.getD_lengths_ofClauses hlt]
    exact Clause.tally_le_length _ _ _
  rw [assign, Occurrences.madeFalse_eq, under, setValue_ofCounts,
    foldl_gainTrue_ofCounts fun k => lt_size_of_mem_madeTrue hvar a value true, Bool.eq_iff_iff,
    gainAllFalse_ofCounts_snd _ _ (fun k => lt_size_of_mem_madeTrue hvar a (!value) false) hle,
    Bool.not_eq_true', Assignment.refutes_eq_false_iff]
  constructor
  · intro hlisted c hc hcfalse
    obtain ⟨k, hk, rfl⟩ := List.getElem_of_mem hc
    have hopen : Clause.tally a false clauses[k] ≠ clauses[k].length := fun h =>
      Assignment.refutes_eq_false_iff.mp hsound _ hc (Clause.tally_false_eq_length_iff.mp h)
    -- The clause was not false before and is now, so one of its literals became false.
    have hfull := Clause.tally_false_eq_length_iff.mpr hcfalse
    have hnew := Clause.tally_update hfree value false clauses[k]
    have hmem : k ∈ (Occurrences.ofClauses numVars clauses).madeTrue var !value := by
      rw [← List.count_pos_iff, Occurrences.count_madeTrue_ofClauses hvar,
        List.getElem?_eq_getElem hk, Option.getD_some, ← beq_false]
      omega
    exact hlisted k hmem
      ((htally k hk).trans (hfull.trans (Occurrences.getD_lengths_ofClauses hk).symm))
  · intro hnone k hk
    have hlt := Occurrences.lt_length_of_mem_madeTrue hvar hk
    rw [htally k hlt, Occurrences.getD_lengths_ofClauses hlt, Ne, Clause.tally_false_eq_length_iff]
    exact hnone _ (List.getElem_mem hlt)

/-- Taking the value of a variable away leads back to the state before it had the value. -/
theorem unassign_under (hvar : var ≤ numVars) (hfree : a var = none) (value : Bool) :
    (under numVars clauses (Function.update a var (some value))).unassign
        (.ofClauses numVars clauses) var
      = under numVars clauses a := by
  have htrue := modifyAll_sub_tally clauses hvar hfree value true
  have hfalse := modifyAll_sub_tally clauses hvar hfree value false
  rw [beq_true] at htrue
  rw [beq_false] at hfalse
  have hback : Function.update (Function.update a var (some value)) var none = a := by
    rw [Function.update_idem, ← hfree, Function.update_eq_self]
  rw [unassign, value?_under hvar, Function.update_self]
  dsimp only
  rw [Occurrences.madeFalse_eq, under, foldl_loseTrue_ofCounts, foldl_loseFalse_ofCounts,
    setValue_ofCounts, htrue, hfalse, setIfInBounds_values, hback, under]

end

end Counters
end VennDiagram.Search
