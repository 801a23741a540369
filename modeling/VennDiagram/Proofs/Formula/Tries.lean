import VennDiagram.Proofs.Formula.Balance

/-!
# `VennDiagram.Proofs.Formula.Tries`: the search ends and tries no node twice

A search tries nodes: lists of values for the first variables, of which the last is new. `Earlier` orders
them as a depth-first walk meets them, a node before its branches and true before false. In every state
the nodes that were tried lie behind it (`State.Passed`):

* going on from a trail, they are the node of the trail and earlier ones;
* going back from a trail, they may also lie below the node, since all of that has failed. So the false
  branch, which comes after everything below the true one, is later than all of them.

A step keeps this (`Step.passed`), and each try comes after all the tries before it
(`Reached.pairwise_tried`). There are `2 ^ (n + 1) - 2` lists of at most `n` values besides the empty one,
which bounds the tries, and with them all that a search counts (`search_advances`).
-/

set_option autoImplicit false

namespace VennDiagram

/-! ### The order of nodes -/

/-- Coming earlier is transitive. -/
theorem Earlier.trans {p q r : List Bool} (h : Earlier p q) (h' : Earlier q r) : Earlier p r := by
  refine List.lex_trans ?_ h h'
  rintro x y z ⟨-, hfalse⟩ ⟨htrue, -⟩
  exact absurd (htrue.symm.trans hfalse) (by decide)

/-- Nothing comes earlier than itself. -/
theorem Earlier.ne {p q : List Bool} (h : Earlier p q) : p ≠ q := by
  rintro rfl
  exact h.asymm h

/-- A node comes before its branches. -/
theorem earlier_append_singleton (node : List Bool) (value : Bool) : Earlier node (node ++ [value]) := by
  have hbelow : Earlier (node ++ []) (node ++ [value]) := List.Lex.append_left _ List.Lex.nil node
  rwa [List.append_nil] at hbelow

/-- What comes before a branch comes before the node or lies below it. -/
theorem prefix_or_earlier_of_append {p q r : List Bool} (h : Earlier q (p ++ r)) :
    p <+: q ∨ Earlier q p := by
  induction p generalizing q with
  | nil => exact Or.inl List.nil_prefix
  | cons value p ih =>
    cases h with
    | nil => exact Or.inr List.Lex.nil
    | cons h =>
      rcases ih h with hprefix | hearlier
      · exact Or.inl (List.cons_prefix_cons.mpr ⟨rfl, hprefix⟩)
      · exact Or.inr (List.Lex.cons hearlier)
    | rel h => exact Or.inr (List.Lex.rel h)

namespace Search

variable {f : Formula} {s s' : State} {tried : List (List Bool)} {node : List Bool}

/-! ### What lies behind a state -/

/-- The search has passed the node when it gets to the state. -/
def State.Passed (node : List Bool) : State → Prop
  | .onward trail _ => node = nodeOf trail ∨ Earlier node (nodeOf trail)
  | .trying d trail _ => Earlier node (nodeOf (d :: trail))
  | .back trail _ => nodeOf trail <+: node ∨ Earlier node (nodeOf trail)
  | .stopped _ _ => True

/-- A step leads on. -/
theorem Step.passed (h : Step f s s') (hs : s.Passed node) : s'.Passed node := by
  -- Going back, the search comes to nodes above one that it has passed, which then lies below the node
  -- of the state and not before it.
  cases h with
  | finish => trivial
  | @choose trail p hopen hroom =>
    show Earlier node (nodeOf (⟨trail.length + 1, true⟩ :: trail))
    rw [nodeOf_cons]
    rcases hs with rfl | hearlier
    · exact earlier_append_singleton _ _
    · exact hearlier.trans (earlier_append_singleton _ _)
  | enter => exact Or.inr hs
  | clash => exact Or.inr hs
  | @flip var trail p =>
    have hbehind : nodeOf trail ++ [true] <+: node ∨ Earlier node (nodeOf trail ++ [true]) := by
      rw [← nodeOf_cons ⟨var, true⟩ trail]
      exact hs
    show Earlier node (nodeOf (⟨var, false⟩ :: trail))
    rw [nodeOf_cons]
    rcases hbehind with hbelow | hearlier
    · exact earlier_of_branches hbelow List.prefix_rfl
    · exact hearlier.trans (earlier_of_branches List.prefix_rfl List.prefix_rfl)
  | @giveUp var trail p =>
    have hbehind : nodeOf trail ++ [false] <+: node ∨ Earlier node (nodeOf trail ++ [false]) := by
      rw [← nodeOf_cons ⟨var, false⟩ trail]
      exact hs
    show nodeOf trail <+: node ∨ Earlier node (nodeOf trail)
    rcases hbehind with hbelow | hearlier
    · exact Or.inl ((List.prefix_append _ _).trans hbelow)
    · exact prefix_or_earlier_of_append hearlier
  | fail => trivial

/-- What a step tries comes after all that lies behind. -/
theorem State.Passed.earlier {last : List Bool} (hs : s.Passed node) (hlast : last ∈ s.tries) :
    Earlier node last := by
  cases s with
  | trying d trail p =>
    obtain rfl := List.mem_singleton.mp hlast
    exact hs
  | onward trail p => exact nomatch hlast
  | back trail p => exact nomatch hlast
  | stopped answer p => exact nomatch hlast

/-- What a step tries lies behind afterwards. -/
theorem Step.passed_of_mem_tries (h : Step f s s') (hnode : node ∈ s.tries) : s'.Passed node := by
  cases h with
  | enter => exact Or.inl (List.mem_singleton.mp hnode)
  | clash =>
    obtain rfl := List.mem_singleton.mp hnode
    exact Or.inl List.prefix_rfl
  | finish => exact nomatch hnode
  | choose => exact nomatch hnode
  | flip => exact nomatch hnode
  | giveUp => exact nomatch hnode
  | fail => exact nomatch hnode

/-- Whatever has been tried has been passed. -/
theorem Reached.passed (h : Reached f tried s) : ∀ node ∈ tried, s.Passed node := by
  induction h with
  | start =>
    intro node hnode
    exact nomatch hnode
  | step _ hstep ih =>
    intro node hnode
    rcases List.mem_append.mp hnode with hbefore | hnow
    · exact hstep.passed (ih node hbefore)
    · exact hstep.passed_of_mem_tries hnow

/-- The nodes that are tried come in order. -/
theorem pairwise_tries (s : State) : s.tries.Pairwise Earlier := by
  cases s with
  | trying d trail p => exact List.pairwise_singleton _ _
  | onward trail p => exact List.Pairwise.nil
  | back trail p => exact List.Pairwise.nil
  | stopped answer p => exact List.Pairwise.nil

/-- Each try comes after those before it. -/
theorem Reached.pairwise_tried (h : Reached f tried s) : tried.Pairwise Earlier := by
  induction h with
  | start => exact List.Pairwise.nil
  | @step _ s _ hs _ ih =>
    refine List.pairwise_append.mpr ⟨ih, pairwise_tries s, ?_⟩
    intro node hnode last hlast
    exact (hs.passed node hnode).earlier hlast

/-! ### The number of tries -/

/-- A step counts what it tries. -/
theorem Step.decisions_eq (h : Step f s s') :
    s'.progress.effort.decisions = s.progress.effort.decisions + s.tries.length := by
  cases h <;> rfl

/-- Each node that is tried counts as a decision. -/
theorem Reached.decisions_eq (h : Reached f tried s) :
    s.progress.effort.decisions = tried.length := by
  induction h with
  | start => rfl
  | step _ hstep ih => rw [hstep.decisions_eq, ih, List.length_append]

/-- The lists of at most `depth` truth values. -/
theorem strings_add_one (depth : Nat) : strings depth + 1 = 2 ^ (depth + 1) := by
  induction depth with
  | zero => rfl
  | succ depth ih =>
    rw [strings, Nat.pow_succ, ← ih]
    omega

/-- The counts of a search that is over. -/
theorem Reached.effort_le {answer : Option (List Decision)} {p : Progress}
    (h : Reached f tried (.stopped answer p)) :
    p.effort.decisions ≤ 2 ^ (f.numVars + 1) - 2 ∧ p.effort.conflicts ≤ 2 ^ f.numVars ∧
      p.effort.backtracks ≤ 2 ^ f.numVars - 1 := by
  have hdecisions : p.effort.decisions = tried.length := h.decisions_eq
  have htried := h.length_tried_add_remaining_le
  have hstrings := strings_add_one f.numVars
  have hpow : 2 ^ (f.numVars + 1) = 2 ^ f.numVars * 2 := Nat.pow_succ 2 f.numVars
  have hpos : 0 < 2 ^ f.numVars := Nat.two_pow_pos f.numVars
  have hbound : p.effort.decisions ≤ 2 ^ (f.numVars + 1) - 2 := by omega
  refine ⟨hbound, ?_⟩
  -- Two tries lie behind each decision that was given up, and behind each false one that is left.
  have hbalanced := h.balanced
  cases answer with
  | none =>
    obtain ⟨htwice, hconflicts⟩ : Balances p.effort [] 1 := hbalanced
    simp only [falses, List.countP_nil, List.length_nil] at htwice hconflicts
    omega
  | some trail =>
    obtain ⟨htwice, hconflicts⟩ : Balances p.effort trail 0 := hbalanced
    have hle := falses_le_length trail
    omega

/-! ### Main result -/

/-- An empty clause settles a formula without effort. -/
theorem effort_decide_of_mem (hempty : [] ∈ f.clauses) : f.decide.effort = ⟨0, 0, 0⟩ :=
  (Formula.decide_eq_explore f).2.2.2.2 hempty

/-- A search tries no more than all nodes, and fails at no more than all leaves. -/
theorem effort_decide_le (f : Formula) :
    f.decide.effort.decisions ≤ 2 ^ (f.numVars + 1) - 2 ∧
      f.decide.effort.conflicts ≤ 2 ^ f.numVars ∧
      f.decide.effort.backtracks ≤ 2 ^ f.numVars - 1 := by
  by_cases hempty : [] ∈ f.clauses
  · rw [effort_decide_of_mem hempty]
    exact ⟨Nat.zero_le _, Nat.zero_le _, Nat.zero_le _⟩
  · obtain ⟨tried, hreached⟩ := reached_run f
    rw [(Formula.decide_of_notMem hempty).1]
    exact hreached.effort_le

/-- No sequence of steps goes on for ever, and from every state that is reached the search gets to the end
of its run. The nodes that were tried become strictly later in the order of a depth-first walk, so none
is tried twice; each is what the table of values holds when the try has been made. This bounds the
effort of deciding a formula by the number of its variables. -/
theorem search_advances (f : Formula) :
    (WellFounded fun s' s => Step f s s') ∧
    (∀ tried s, Reached f tried s →
      (∃ later, Reached f (tried ++ later) (.stopped (run f).1 (run f).2)) ∧
      tried.Pairwise Earlier ∧ tried.Nodup ∧ s.progress.effort.decisions = tried.length ∧
      ∀ d trail p, s = .trying d trail p →
        d.var = trail.length + 1 ∧
        (p.counters.assign (.ofClauses f.numVars f.clauses) d.var d.value).1.value?
          = Assignment.ofList (nodeOf (d :: trail))) ∧
    f.decide.effort.decisions ≤ 2 ^ (f.numVars + 1) - 2 ∧
    f.decide.effort.conflicts ≤ 2 ^ f.numVars ∧
    f.decide.effort.backtracks ≤ 2 ^ f.numVars - 1 := by
  refine ⟨wellFounded_step f, ?_, effort_decide_le f⟩
  intro tried s hreached
  have hpairwise := hreached.pairwise_tried
  refine ⟨hreached.exists_stopped, hpairwise, hpairwise.imp Earlier.ne, hreached.decisions_eq, ?_⟩
  rintro d trail p rfl
  obtain ⟨hfits, hvar, hroom⟩ := hreached.consistent
  -- The try itself is one decision more, and the counters then hold the values of the longer trail.
  have hpush : Fits f (d :: trail)
      (p.decide (.ofClauses f.numVars f.clauses) d.var d.value).1 := hfits.push hvar hroom
  exact ⟨hvar, hpush.value?_eq⟩

/-- Both values of the second variable fail below the true value of the first. The second one is about to
be tried. -/
theorem search_advances_two_values :
    let f : Formula := ⟨2, [[.no 1, .no 2], [.no 1, .yes 2]]⟩
    ∃ p : Progress,
      Reached f [[true], [true, true]] (.trying ⟨2, false⟩ [⟨1, true⟩] p) ∧
      (∃ later, Reached f ([[true], [true, true]] ++ later) (.stopped (run f).1 (run f).2)) ∧
      p.effort.decisions = 2 ∧
      (p.counters.assign (.ofClauses f.numVars f.clauses) 2 false).1.value?
        = Assignment.ofList [true, false] ∧
      f.decide.effort = ⟨4, 2, 1⟩ ∧ 4 ≤ 2 ^ (f.numVars + 1) - 2 := by
  intro f
  have hfirst := Reached.start.step (.choose (by decide +kernel) (by decide) : Step f (.start f) _)
  have hsecond := (hfirst.step (.enter (by decide +kernel))).step
    (.choose (by decide +kernel) (by decide))
  have hflipped := (hsecond.step (.clash (by decide +kernel))).step .flip
  obtain ⟨-, hreached, -⟩ := search_advances f
  obtain ⟨hlater, -, -, hdecisions, htry⟩ := hreached _ _ hflipped
  exact ⟨_, hflipped, hlater, hdecisions, (htry _ _ _ rfl).2, by decide +kernel, by decide⟩

end Search
end VennDiagram
