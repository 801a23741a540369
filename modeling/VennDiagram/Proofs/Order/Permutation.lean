import Mathlib.Data.List.Basic
import VennDiagram.Order.Runs

/-!
# `VennDiagram.Proofs.Order.Permutation`: sorting only moves elements

Whatever a comparison answers, `Order.sort` gives back the elements it was given, each as often
(`sort_perm`). The steps of a merge move elements from one of three lists to another
(`Merging.finish_moveHeld`, `Merging.finish_moveFree`), cutting a run off a list loses none, and the
runs that wait to be merged hold what has been cut off so far (`Pending.elements`). The fuel of
`sortRuns` is enough, since every run takes at least one element.
-/

set_option autoImplicit false

namespace VennDiagram.Order

variable {α : Type} (lt : α → α → Bool) {e : End}

/-! ### Merging -/

namespace Merging

/-- Moving elements of the held run keeps them. -/
theorem finish_moveHeld (m : Merging α) (count : Nat) : (m.moveHeld count).finish.Perm m.finish := by
  have hswap : (m.held.take count ++ m.free).Perm (m.free ++ m.held.take count) :=
    List.perm_append_comm
  calc (m.moveHeld count).finish
      = m.moved.reverse ++ (m.held.take count ++ m.free) ++ m.held.drop count := by
        simp [finish, moveHeld]
    List.Perm _ (m.moved.reverse ++ (m.free ++ m.held.take count) ++ m.held.drop count) :=
        (hswap.append_left _).append_right _
    _ = m.finish := by
        rw [finish, ← List.append_assoc, List.append_assoc, List.take_append_drop]

/-- Moving elements of the free run does not even change their order. -/
theorem finish_moveFree (m : Merging α) (count : Nat) : (m.moveFree count).finish = m.finish := by
  rw [finish, moveFree, List.reverse_append, List.reverse_reverse, List.append_assoc m.moved.reverse,
    List.take_append_drop]
  rfl

end Merging

/-- So it is with all that a search allows the held run to move. -/
theorem finish_advanceHeld (m : Merging α) : (advanceHeld e lt m).1.finish.Perm m.finish := by
  rw [advanceHeld]
  split
  · exact List.Perm.refl _
  · dsimp only
    split
    · exact m.finish_moveHeld _
    · rw [Merging.finish_moveFree]
      exact m.finish_moveHeld _

/-- So it is with all that the free run moves. -/
theorem finish_advanceFree (m : Merging α) : (advanceFree e lt m).1.finish.Perm m.finish := by
  rw [advanceFree]
  split
  · exact List.Perm.refl _
  · dsimp only
    split
    · rw [Merging.finish_moveFree]
    · refine (Merging.finish_moveHeld _ _).trans ?_
      rw [Merging.finish_moveFree]

/-- A round of both runs keeps the elements. -/
theorem finish_advance (m : Merging α) : (advance e lt m).1.finish.Perm m.finish := by
  cases e with
  | front =>
    simp only [advance]
    split
    · exact finish_advanceHeld lt m
    · exact (finish_advanceFree lt _).trans (finish_advanceHeld lt m)
  | back =>
    simp only [advance]
    split
    · exact finish_advanceFree lt m
    · exact (finish_advanceHeld lt _).trans (finish_advanceFree lt m)

/-- A step of walking moves one element. -/
theorem finish_of_step {m next : Merging α} {held free held' free' : Nat} {b : Bool}
    (h : (if b then (m.moveFree 1, 0, free + 1) else (m.moveHeld 1, held + 1, 0))
      = (next, held', free')) : next.finish.Perm m.finish := by
  cases b with
  | true =>
    obtain ⟨rfl, -⟩ := Prod.mk.inj h
    rw [Merging.finish_moveFree]
  | false =>
    obtain ⟨rfl, -⟩ := Prod.mk.inj h
    exact m.finish_moveHeld 1

/-- So do all rounds, however they are taken. -/
theorem finish_mergeOn (fuel patience : Nat) (pace : Pace) (m : Merging α) :
    (mergeOn e lt fuel patience pace m).1.finish.Perm m.finish := by
  -- A round moves one element while walking, and all that come before one of them while galloping.
  -- Either keeps the elements, and it does not matter which kind of round comes next.
  fun_induction mergeOn e lt fuel patience pace m with
  | case1 => exact List.Perm.refl _
  | case2 => exact List.Perm.refl _
  | case3 fuel patience m _ held free y _ x _ _ _ next held' free' hstep _ ih =>
    exact ih.trans (finish_of_step hstep)
  | case4 fuel patience m _ held free y _ x _ _ _ next held' free' hstep _ ih =>
    exact ih.trans (finish_of_step hstep)
  | case5 fuel patience pace m _ next count hadvance =>
    have hperm := finish_advance lt (e := e) m
    rwa [hadvance] at hperm
  | case6 fuel patience pace m _ next count hadvance _ _ _ ih =>
    have hperm := finish_advance lt (e := e) m
    rw [hadvance] at hperm
    exact ih.trans hperm
  | case7 fuel patience pace m _ next count hadvance _ _ _ ih =>
    have hperm := finish_advance lt (e := e) m
    rw [hadvance] at hperm
    exact ih.trans hperm

/-- Merging from one end keeps the elements of both runs. -/
theorem mergeFrom_perm (patience : Nat) (held free : List α) :
    (mergeFrom e lt patience held free).1.Perm (free ++ held) := by
  have hmerge := finish_mergeOn lt (e := e) (held.length + free.length) patience
    (.walking 0 0) ((Merging.mk [] held free).moveFree 1)
  rw [Merging.finish_moveFree] at hmerge
  exact hmerge

/-- Merging from either end does. -/
theorem mergeRuns_perm (patience : Nat) (a b : List α) :
    (mergeRuns lt patience a b).1.Perm (a ++ b) := by
  fun_cases mergeRuns lt patience a b with
  | case1 => simp
  | case2 => exact List.Perm.refl _
  | case3 first rest settled left last _ merged patience' kept right hmerged =>
    -- Only the part between the settled elements is merged, from the front or, with both runs turned
    -- around, from the back.
    have hperm : merged.Perm (left ++ right) := by
      split at hmerged
      · rename_i hempty
        obtain ⟨rfl, -⟩ := Prod.mk.inj hmerged
        rw [List.isEmpty_iff.mp hempty, List.append_nil]
      split at hmerged
      · have hmerge := mergeFrom_perm lt (e := .front) patience left right
        rw [hmerged] at hmerge
        exact hmerge.trans List.perm_append_comm
      · have hmerge := mergeFrom_perm lt (e := .back) patience right.reverse left.reverse
        obtain ⟨rfl, -⟩ := Prod.mk.inj hmerged
        refine (List.reverse_perm _).trans (hmerge.trans ?_)
        exact (List.reverse_perm _).append (List.reverse_perm _)
    have hwhole : (a.take settled ++ merged ++ (first :: rest).drop kept).Perm (a ++ first :: rest) := by
      calc a.take settled ++ merged ++ (first :: rest).drop kept
        List.Perm _ (a.take settled ++ (left ++ right) ++ (first :: rest).drop kept) :=
            (hperm.append_left _).append_right _
        _ = (a.take settled ++ a.drop settled) ++ ((first :: rest).take kept
              ++ (first :: rest).drop kept) := by
            simp only [left, right, List.append_assoc]
        _ = a ++ first :: rest := by rw [List.take_append_drop, List.take_append_drop]
    simp only [right, kept] at hmerged
    simp only [hmerged]
    exact hwhole

/-! ### Runs -/

/-- A chain of related elements and the rest are the list. -/
theorem chain_append (related : α → α → Bool) (before : α) (xs : List α) :
    (chain related before xs).1 ++ (chain related before xs).2 = xs := by
  induction xs generalizing before with
  | nil => rfl
  | cons x rest ih =>
    rw [chain]
    split
    · exact congrArg (x :: ·) (ih x)
    · rfl

/-- The first run and the rest are the list, the run perhaps reversed. -/
theorem firstRun_perm (xs : List α) : ((firstRun lt xs).1 ++ (firstRun lt xs).2).Perm xs := by
  fun_cases firstRun lt xs with
  | case1 x y rest _ run left hchain =>
    have happend := chain_append (fun before x => lt x before) y rest
    rw [hchain] at happend
    rw [← happend]
    exact (List.reverse_perm _).append_right left
  | case2 x y rest _ run left hchain =>
    have happend := chain_append (fun before x => !lt x before) y rest
    rw [hchain] at happend
    rw [← happend]
    exact List.Perm.refl _
  | case3 => simp

/-- A list that is not empty begins with a run that is not. -/
theorem firstRun_ne_nil {xs : List α} (h : xs ≠ []) : (firstRun lt xs).1 ≠ [] := by
  fun_cases firstRun lt xs with
  | case1 => simp
  | case2 => simp
  | case3 => exact h

/-- Inserting adds an element wherever it goes. -/
theorem insert_perm (run : List α) (x : α) : (insert lt run x).Perm (x :: run) := by
  rw [insert]
  refine List.perm_middle.trans ?_
  rw [List.take_append_drop]

/-- Inserting one after the other adds them all. -/
theorem foldl_insert_perm (run added : List α) :
    (added.foldl (insert lt) run).Perm (run ++ added) := by
  induction added generalizing run with
  | nil => simp
  | cons x rest ih =>
    rw [List.foldl_cons]
    refine (ih _).trans ?_
    exact ((insert_perm lt run x).append_right rest).trans List.perm_middle.symm

/-- A run that is made longer takes the elements from the rest. -/
theorem nextRun_perm (least : Nat) (xs : List α) :
    ((nextRun lt least xs).1 ++ (nextRun lt least xs).2).Perm xs := by
  rcases hrun : firstRun lt xs with ⟨run, rest⟩
  have hfirst := firstRun_perm lt xs
  rw [hrun] at hfirst
  simp only [nextRun, hrun]
  refine ((foldl_insert_perm lt _ _).append_right _).trans ?_
  rw [List.append_assoc, List.take_append_drop]
  exact hfirst

/-- Cutting a run off makes a list shorter. -/
theorem length_nextRun_lt (least : Nat) {xs : List α} (h : xs ≠ []) :
    (nextRun lt least xs).2.length < xs.length := by
  rcases hrun : firstRun lt xs with ⟨run, rest⟩
  have hne := firstRun_ne_nil lt h
  have hlength := (firstRun_perm lt xs).length_eq
  rw [hrun] at hne hlength
  have hpos := List.length_pos_iff.mpr hne
  simp only [nextRun, hrun, List.length_append, List.length_drop] at hlength hpos ⊢
  omega

/-! ### Sorting -/

/-- What waits to be merged. -/
def Pending.elements (s : Pending α) : List α := s.last ++ s.before.flatMap Prod.fst

/-- Merging the runs above a limit keeps the elements of all runs. -/
theorem mergeAbove_perm (limit patience : Nat) (last : List α) (before : List (List α × Nat)) :
    (mergeAbove lt limit patience last before).elements.Perm (last ++ before.flatMap Prod.fst) := by
  induction before generalizing patience last with
  | nil => exact List.Perm.refl _
  | cons top before ih =>
    obtain ⟨run, p⟩ := top
    rw [mergeAbove]
    split
    · refine (ih _ _).trans ?_
      rw [List.flatMap_cons, ← List.append_assoc]
      exact ((mergeRuns_perm lt patience run last).trans List.perm_append_comm).append_right _
    · exact List.Perm.refl _

/-- Putting a run on the others adds its elements, whatever is merged for it. -/
theorem Pending.elements_push (count : Nat) (s : Pending α) (run : List α) :
    (s.push lt count run).elements.Perm (s.elements ++ run) := by
  refine List.Perm.trans ?_ List.perm_append_comm
  exact (mergeAbove_perm lt _ s.patience s.last s.before).append_left run

/-- Cutting a list into runs keeps its elements, with fuel for each of them. -/
theorem sortRuns_perm (count least fuel : Nat) (s : Pending α) {xs : List α}
    (hfuel : xs.length ≤ fuel) :
    (sortRuns lt count least fuel s xs).elements.Perm (s.elements ++ xs) := by
  fun_induction sortRuns lt count least fuel s xs with
  | case1 s xs =>
    rw [List.length_eq_zero_iff.mp (Nat.le_zero.mp hfuel), List.append_nil]
  | case2 => simp
  | case3 fuel s xs hne run rest hnext ih =>
    have hperm := nextRun_perm lt least xs
    have hlt := length_nextRun_lt lt least hne
    rw [hnext] at hperm hlt
    refine (ih (Nat.le_of_lt_succ (Nat.lt_of_lt_of_le hlt hfuel))).trans ?_
    refine ((s.elements_push lt count run).append_right rest).trans ?_
    rw [List.append_assoc]
    exact hperm.append_left _

/-- Merging what is left keeps the elements of all runs. -/
theorem mergeAll_perm (patience : Nat) (last : List α) (before : List (List α × Nat)) :
    (mergeAll lt patience last before).Perm (last ++ before.flatMap Prod.fst) := by
  -- Either the last two runs are merged or the two before them, and the rest is left for later.
  fun_induction mergeAll lt patience last before with
  | case1 => simp
  | case2 patience last run p =>
    simpa using (mergeRuns_perm lt patience run last).trans List.perm_append_comm
  | case3 patience last second _ third p before _ merged patience' hmerge ih =>
    have hperm := mergeRuns_perm lt patience third second
    rw [hmerge] at hperm
    refine ih.trans (List.Perm.append_left last ?_)
    simp only [List.flatMap_cons, ← List.append_assoc]
    exact (hperm.trans List.perm_append_comm).append_right _
  | case4 patience last second _ third p before _ merged patience' hmerge ih =>
    have hperm := mergeRuns_perm lt patience second last
    rw [hmerge] at hperm
    refine ih.trans ?_
    simp only [List.flatMap_cons, ← List.append_assoc]
    exact ((hperm.trans List.perm_append_comm).append_right _).append_right _

/-- Sorting moves elements and does nothing else, whatever the comparison answers. -/
theorem sort_perm (lt : α → α → Bool) (xs : List α) : (sort lt xs).Perm xs := by
  rcases hnext : nextRun lt (leastRun xs.length) xs with ⟨run, rest⟩
  have hperm := nextRun_perm lt (leastRun xs.length) xs
  rw [hnext] at hperm
  have hrest : rest.length ≤ xs.length := by
    have hlength : (run ++ rest).length = xs.length := hperm.length_eq
    rw [List.length_append] at hlength
    omega
  simp only [sort, hnext]
  refine (mergeAll_perm lt _ _ _).trans ((sortRuns_perm lt _ _ _ _ hrest).trans ?_)
  simpa [Pending.elements] using hperm

end VennDiagram.Order
