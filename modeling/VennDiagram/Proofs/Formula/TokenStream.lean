import Mathlib.Data.List.Forall2
import Mathlib.Order.Lattice.Nat
import VennDiagram.Formula.Dimacs
import VennDiagram.Proofs.Steps

/-!
# `VennDiagram.Proofs.Formula.TokenStream`: what the text of a formula says

The lines of a text before the end mark are of three kinds: comments, headers, and all others, whose
words are the tokens. `tokenStream` lists the tokens of the whole text, and what the text says about
clauses depends on this list only.

`InGrammar` is the grammar. Every header has four words, with `cnf` and an integer in the middle; every
token is an integer; and among the integers no zero comes first or follows a zero, and a zero comes last.
`read_grammar` says that exactly the texts in the grammar are read, and what is read from them: the
clauses are the runs between the zeros.

The reader goes from line to line with a clause that is not yet ended. What it has read at any point is
determined by the integers so far (`Reading.after`), however they are spread over lines. So one step adds
one integer (`token_after`), a line adds its integers (`foldlM_token_after`), and lines add theirs one
after another (`foldlM_line_after`).
-/

set_option autoImplicit false

namespace VennDiagram

namespace Dimacs

/-! ### The grammar -/

/-- The lines of a text before the end mark, without the blanks at their ends. -/
def contentLines (text : String) : List (List Char) :=
  ((Text.lines text.toList).map Text.trim).takeWhile fun line => line.head? != some '%'

/-- The lines that begin with a character. -/
def linesFrom (mark : Char) (lines : List (List Char)) : List (List Char) :=
  lines.filter fun line => line.head? = some mark

/-- The lines that are not blank and are neither comments nor headers. -/
def tokenLines (lines : List (List Char)) : List (List Char) :=
  lines.filter fun line => line ≠ [] ∧ line.head? ≠ some 'c' ∧ line.head? ≠ some 'p'

/-- The tokens of all lines, in order. -/
def tokensOf (lines : List (List Char)) : List (List Char) := (tokenLines lines).flatMap Text.words

/-- The tokens of a text. -/
def tokenStream (text : String) : List (List Char) := tokensOf (contentLines text)

/-- What follows the marks of the comments. -/
def commentsOf (lines : List (List Char)) : List String :=
  (linesFrom 'c' lines).map fun line => String.ofList (Text.trim line.tail)

/-- The line is a header with a count of variables. -/
def IsHeader (line : List Char) (count : Int) : Prop :=
  ∃ mark number clauses,
    Text.words line = [mark, "cnf".toList, number, clauses] ∧ Text.readInt? number = some count

/-- No zero comes first, and none follows a zero. -/
structure Delimited (numbers : List Int) : Prop where
  head_ne : numbers.head? ≠ some 0
  no_pair : ¬ [0, 0] <:+: numbers

/-- A text in the grammar, with the counts of its headers and the integers of its tokens. -/
structure InGrammar (text : String) (counts numbers : List Int) : Prop where
  headers : List.Forall₂ IsHeader (linesFrom 'p' (contentLines text)) counts
  tokens : (tokenStream text).map Text.readInt? = numbers.map some
  delimited : Delimited numbers
  ended : numbers = [] ∨ numbers.getLast? = some 0

/-- The maximal runs of integers other than zero, in order. -/
def runs (numbers : List Int) : List (List Int) := (numbers.splitOn 0).filter (!·.isEmpty)

/-- The greatest magnitude among integers, or zero if there are none. -/
def greatest (numbers : List Int) : Nat := (numbers.map Int.natAbs).foldl max 0

/-! ### Integers cut at zeros -/

section
variable {numbers more : List Int} {i : Int}

/-- A zero at the end begins one more part, which is empty. -/
theorem splitOn_append_zero (numbers : List Int) :
    (numbers ++ [0]).splitOn 0 = numbers.splitOn 0 ++ [[]] := by
  rw [List.splitOn_append_cons_self, List.splitOn_nil]

/-- An integer other than zero goes to the last piece. -/
theorem splitOn_append_of_ne (numbers : List Int) (hi : i ≠ 0) :
    ∃ pieces last, numbers.splitOn 0 = pieces ++ [last] ∧
      (numbers ++ [i]).splitOn 0 = pieces ++ [last ++ [i]] := by
  induction numbers with
  | nil =>
    refine ⟨[], [], List.splitOn_nil 0, ?_⟩
    rw [List.nil_append, List.splitOn_eq_singleton (by simpa using hi.symm)]
    rfl
  | cons x xs ih =>
    obtain ⟨pieces, last, hbefore, hafter⟩ := ih
    rw [List.cons_append, List.splitOn_cons_eq_if_modifyHead, List.splitOn_cons_eq_if_modifyHead,
      hbefore, hafter]
    by_cases hx : x = 0
    · exact ⟨[] :: pieces, last, by simp [hx], by simp [hx]⟩
    · -- The first integer goes to the first piece, which may be the last one too.
      cases pieces with
      | nil => exact ⟨[], x :: last, by simp [hx], by simp [hx]⟩
      | cons piece pieces => exact ⟨(x :: piece) :: pieces, last, by simp [hx], by simp [hx]⟩

/-- The last piece is empty when nothing follows the last zero. -/
theorem exists_splitOn_eq (numbers : List Int) :
    ∃ pieces last, numbers.splitOn 0 = pieces ++ [last] ∧
      (last = [] ↔ numbers = [] ∨ numbers.getLast? = some 0) := by
  rcases List.eq_nil_or_concat' numbers with rfl | ⟨before, i, rfl⟩
  · exact ⟨[], [], List.splitOn_nil 0, by simp⟩
  · by_cases hi : i = 0
    · subst hi
      exact ⟨before.splitOn 0, [], splitOn_append_zero before, by simp⟩
    · obtain ⟨pieces, last, -, hafter⟩ := splitOn_append_of_ne before hi
      exact ⟨pieces, last ++ [i], hafter, by simp [hi]⟩

/-- No integers are delimited. -/
theorem delimited_nil : Delimited [] := ⟨by simp, by simp⟩

/-- A first part of delimited integers is delimited. -/
theorem Delimited.of_append (h : Delimited (numbers ++ more)) : Delimited numbers where
  head_ne hhead := by
    cases numbers with
    | nil => simp at hhead
    | cons x xs => exact h.head_ne hhead
  no_pair hpair := h.no_pair (hpair.trans (List.prefix_append _ _).isInfix)

/-- A zero is allowed after an integer other than zero only. -/
theorem delimited_append_iff :
    Delimited (numbers ++ [i]) ↔
      Delimited numbers ∧ (i = 0 → ¬ (numbers = [] ∨ numbers.getLast? = some 0)) := by
  constructor
  · intro h
    refine ⟨h.of_append, ?_⟩
    rintro rfl (rfl | hlast)
    · exact h.head_ne rfl
    · obtain ⟨before, rfl⟩ := List.getLast?_eq_some_iff.mp hlast
      exact h.no_pair ⟨before, [], by simp⟩
  · rintro ⟨h, hzero⟩
    refine ⟨fun hhead => ?_, fun hpair => ?_⟩
    · cases numbers with
      | nil =>
        obtain rfl : i = 0 := by simpa using hhead
        exact hzero rfl (Or.inl rfl)
      | cons x xs => exact h.head_ne hhead
    -- Two zeros in a row are either the last two numbers or were there before.
    · rcases List.infix_concat_iff.mp hpair with hsuffix | hinfix
      · obtain ⟨before, heq⟩ := hsuffix
        have hsplit : before ++ [0] ++ [0] = numbers ++ [i] := by simpa using heq
        obtain ⟨hnumbers, hi⟩ := List.append_inj' hsplit rfl
        obtain rfl : i = 0 := by simpa using hi.symm
        exact hzero rfl (Or.inr (by simp [← hnumbers]))
      · exact h.no_pair hinfix

end

/-- The runs hold every integer but the zeros. -/
theorem flatten_runs (numbers : List Int) : (runs numbers).flatten = numbers.filter (· ≠ 0) := by
  rw [runs, List.flatten_filter_not_isEmpty]
  induction numbers with
  | nil => rfl
  | cons x xs ih =>
    rw [List.splitOn_cons_eq_if_modifyHead]
    by_cases hx : x = 0
    · simp [hx, ih]
    · obtain ⟨pieces, last, hsplit, -⟩ := exists_splitOn_eq xs
      rw [hsplit] at ih ⊢
      cases pieces <;> simp_all

/-- The greatest of numbers is bounded exactly if each of them is. -/
theorem foldl_max_le_iff (xs : List Nat) (first bound : Nat) :
    xs.foldl max first ≤ bound ↔ first ≤ bound ∧ ∀ x ∈ xs, x ≤ bound := by
  induction xs generalizing first with
  | nil => simp
  | cons x xs ih => rw [List.foldl_cons, ih, max_le_iff, List.forall_mem_cons, and_assoc]

/-- The greatest variable is bounded exactly if every integer is, without its sign. -/
theorem greatest_le_iff {numbers : List Int} {bound : Nat} :
    greatest numbers ≤ bound ↔ ∀ i ∈ numbers, i.natAbs ≤ bound := by
  simp [greatest, foldl_max_le_iff]

/-- The greatest variable of the runs, in any order, is the greatest magnitude. -/
theorem foldl_max_var_eq (numbers : List Int) :
    (((runs numbers).map (·.map Literal.ofInt)).reverse.flatten.map Literal.var).foldl max 0
      = greatest numbers := by
  refine eq_of_forall_ge_iff fun bound => ?_
  have hmem (i : Int) : (∃ run ∈ runs numbers, i ∈ run) ↔ i ∈ numbers ∧ i ≠ 0 := by
    rw [← List.mem_flatten, flatten_runs, List.mem_filter, decide_eq_true_eq]
  calc (((runs numbers).map (·.map Literal.ofInt)).reverse.flatten.map Literal.var).foldl max 0 ≤ bound
      ↔ ∀ i, (∃ run ∈ runs numbers, i ∈ run) → i.natAbs ≤ bound := by
        simp [foldl_max_le_iff, Literal.ofInt]
        grind
    _ ↔ ∀ i ∈ numbers, i.natAbs ≤ bound := by
        simp only [hmem]
        -- A zero is within any bound.
        exact ⟨fun h i hi => if h0 : i = 0 then by simp [h0] else h i ⟨hi, h0⟩, fun h i hi => h i hi.1⟩
    _ ↔ greatest numbers ≤ bound := greatest_le_iff.symm

/-! ### The reader -/

/-- What a line is depends on its first character. -/
theorem Line.ofText_eq (line : List Char) :
    Line.ofText line =
      if line.head? = some 'c' then .comment (Text.trim line.tail)
      else if line.head? = some 'p' then .header line
      else .tokens (Text.words line) := by
  cases line with
  | nil => rfl
  | cons c rest =>
    by_cases hcomment : c = 'c'
    · subst hcomment
      rfl
    · by_cases hheader : c = 'p'
      · subst hheader
        rfl
      · simp [Line.ofText, hcomment, hheader]

/-- The last of two lists one after the other. -/
theorem getLastD_append {β : Type} (xs ys : List β) (d : β) :
    (xs ++ ys).getLastD d = ys.getLastD (xs.getLastD d) := by
  cases h : ys.getLast? <;> simp [List.getLast?_append, h]

namespace Reading

/-- What has been read after a header with a count, integers, and comments. -/
def after (count : Int) (numbers : List Int) (comments : List String) : Reading :=
  { headerVars := count
    clauses := (((numbers.splitOn 0).dropLast.filter (!·.isEmpty)).map (·.map Literal.ofInt)).reverse
    current := (((numbers.splitOn 0).getLastD []).map Literal.ofInt).reverse
    comments := comments.reverse }

variable {count : Int} {numbers : List Int} {comments : List String} {r : Reading}

/-- Reading begins as after no clause, no comment and no integer. -/
theorem start_eq_after : start = after 0 [] [] := by
  rw [after, List.splitOn_nil]
  rfl

/-- Nothing is left of a clause at the beginning and after a zero. -/
theorem current_after_isEmpty_iff (count : Int) (numbers : List Int) (comments : List String) :
    (after count numbers comments).current.isEmpty = true ↔
      numbers = [] ∨ numbers.getLast? = some 0 := by
  obtain ⟨pieces, last, hsplit, hlast⟩ := exists_splitOn_eq numbers
  simp [after, hsplit, ← hlast]

/-- Reading a token adds an integer, unless it is no integer or a zero that ends no clause. -/
theorem token_after (hnumbers : Delimited numbers) (word : List Char) :
    (after count numbers comments).token word = .ok r ↔
      ∃ i, Text.readInt? word = some i ∧ Delimited (numbers ++ [i]) ∧
        r = after count (numbers ++ [i]) comments := by
  rw [token]
  cases Text.readInt? word with
  | none => simp
  | some i =>
    simp only [Option.some.injEq, exists_eq_left', delimited_append_iff, hnumbers, true_and]
    by_cases hi : i = 0
    · subst hi
      obtain ⟨pieces, last, hsplit, hlast⟩ := exists_splitOn_eq numbers
      have hempty := current_after_isEmpty_iff count numbers comments
      by_cases hended : numbers = [] ∨ numbers.getLast? = some 0
      · simp [hempty.mpr hended, hended]
      · -- The clause that ends here is the last piece, which is not empty.
        have hne : last ≠ [] := mt hlast.mp hended
        have hopen : (after count numbers comments).current.isEmpty = false := by
          rw [← Bool.not_eq_true, hempty]
          exact hended
        have hnext : (⟨count, (after count numbers comments).current.reverse
              :: (after count numbers comments).clauses, [], comments.reverse⟩ : Reading)
            = after count (numbers ++ [0]) comments := by
          simp [after, splitOn_append_zero, hsplit, hne]
        simp only [if_true, hopen, Bool.false_eq_true, if_false, Except.ok.injEq, hended,
          not_false_eq_true, implies_true, true_and, ← hnext]
        exact eq_comm
    · obtain ⟨pieces, last, hbefore, hafter⟩ := splitOn_append_of_ne numbers hi
      have hnext : (⟨count, (after count numbers comments).clauses,
            Literal.ofInt i :: (after count numbers comments).current, comments.reverse⟩ : Reading)
          = after count (numbers ++ [i]) comments := by
        simp [after, hbefore, hafter]
      simp only [hi, if_false, Except.ok.injEq, false_implies, true_and, ← hnext]
      exact eq_comm

/-- Reading tokens adds their integers. -/
theorem foldlM_token_after (hnumbers : Delimited numbers) (words : List (List Char)) :
    words.foldlM token (after count numbers comments) = .ok r ↔
      ∃ more, words.map Text.readInt? = more.map some ∧ Delimited (numbers ++ more) ∧
        r = after count (numbers ++ more) comments := by
  -- A word reads as a number and is appended, so the numbers so far have to be arbitrary.
  induction words generalizing numbers with
  | nil =>
    constructor
    · intro h
      obtain rfl := Except.ok.inj h
      exact ⟨[], rfl, by rwa [List.append_nil], by rw [List.append_nil]⟩
    · rintro ⟨more, hmore, -, rfl⟩
      obtain rfl : more = [] := by simpa using hmore.symm
      rw [List.append_nil]
      rfl
  | cons word words ih =>
    rw [List.foldlM_cons, bind_eq_ok_iff]
    constructor
    · rintro ⟨next, hstep, hrest⟩
      obtain ⟨i, hi, hdelimited, rfl⟩ := (token_after hnumbers word).mp hstep
      obtain ⟨more, hmore, hmoreDelimited, rfl⟩ := (ih hdelimited).mp hrest
      rw [List.append_assoc, List.singleton_append] at hmoreDelimited ⊢
      exact ⟨i :: more, by simp [hi, hmore], hmoreDelimited, rfl⟩
    · rintro ⟨more, hmore, hdelimited, rfl⟩
      cases more with
      | nil => simp at hmore
      | cons i more =>
        obtain ⟨hi, hmore⟩ := List.cons.inj hmore
        rw [List.append_cons] at hdelimited
        exact ⟨_, (token_after hnumbers word).mpr ⟨i, hi, hdelimited.of_append, rfl⟩,
          (ih hdelimited.of_append).mpr ⟨more, hmore, hdelimited, by rw [List.append_cons]⟩⟩

/-- Reading a header replaces the count. -/
theorem header_after (line : List Char) :
    (after count numbers comments).header line = .ok r ↔
      ∃ next, IsHeader line next ∧ r = after next numbers comments := by
  rw [header]
  constructor
  · intro h
    split at h
    · rename_i mark format number clauses hwords
      split at h
      · rename_i hformat
        split at h
        · rename_i next hnext
          obtain rfl := Except.ok.inj h
          exact ⟨next, ⟨mark, number, clauses, hformat ▸ hwords, hnext⟩, rfl⟩
        · exact nomatch h
      · exact nomatch h
    · exact nomatch h
  · rintro ⟨next, ⟨mark, number, clauses, hwords, hnext⟩, rfl⟩
    simp only [hwords, if_true, hnext]
    rfl

/-- Reading a line of a text adds what it holds. A blank line is neither comment nor header, and holds
no tokens. -/
theorem line_after (hnumbers : Delimited numbers) (line : List Char) :
    (after count numbers comments).line (Line.ofText line) = .ok r ↔
      ∃ counts more, List.Forall₂ IsHeader (linesFrom 'p' [line]) counts ∧
        (tokensOf [line]).map Text.readInt? = more.map some ∧ Delimited (numbers ++ more) ∧
        r = after (counts.getLastD count) (numbers ++ more) (comments ++ commentsOf [line]) := by
  rw [Line.ofText_eq]
  -- A line adds to one of the three streams only: the first character says to which.
  by_cases hcomment : line.head? = some 'c'
  · have hheaders : linesFrom 'p' [line] = [] := by simp [linesFrom, hcomment]
    have htokens : tokensOf [line] = [] := by simp [tokensOf, tokenLines, hcomment]
    have hcomments : commentsOf [line] = [String.ofList (Text.trim line.tail)] := by
      simp [commentsOf, linesFrom, hcomment]
    have hnext : (after count numbers comments).line (.comment (Text.trim line.tail))
        = .ok (after count numbers (comments ++ commentsOf [line])) := by
      simp [Reading.line, after, hcomments]
    rw [if_pos hcomment, hnext, hheaders, htokens]
    constructor
    · intro h
      obtain rfl := Except.ok.inj h
      exact ⟨[], [], List.Forall₂.nil, rfl, by rwa [List.append_nil], by rw [List.append_nil]; rfl⟩
    · rintro ⟨counts, more, hcounts, hmore, -, rfl⟩
      obtain rfl := List.forall₂_nil_left_iff.mp hcounts
      obtain rfl : more = [] := by simpa using hmore.symm
      rw [List.append_nil]
      rfl
  by_cases hheader : line.head? = some 'p'
  · have hheaders : linesFrom 'p' [line] = [line] := by simp [linesFrom, hheader]
    have htokens : tokensOf [line] = [] := by simp [tokensOf, tokenLines, hheader]
    have hcomments : commentsOf [line] = [] := by simp [commentsOf, linesFrom, hheader]
    rw [if_neg hcomment, if_pos hheader, hheaders, htokens, hcomments, List.append_nil]
    refine (header_after line).trans ?_
    constructor
    · rintro ⟨next, hnext, rfl⟩
      exact ⟨[next], [], List.Forall₂.cons hnext List.Forall₂.nil, rfl, by rwa [List.append_nil],
        by rw [List.append_nil]; rfl⟩
    · rintro ⟨counts, more, hcounts, hmore, -, rfl⟩
      obtain ⟨next, rest, hnext, hrest, rfl⟩ := List.forall₂_cons_left_iff.mp hcounts
      obtain rfl := List.forall₂_nil_left_iff.mp hrest
      obtain rfl : more = [] := by simpa using hmore.symm
      exact ⟨next, hnext, by rw [List.append_nil]; rfl⟩
  · have hheaders : linesFrom 'p' [line] = [] := by simp [linesFrom, hheader]
    have htokens : tokensOf [line] = Text.words line := by
      cases line with
      | nil => rfl
      | cons c rest => simp_all [tokensOf, tokenLines]
    have hcomments : commentsOf [line] = [] := by simp [commentsOf, linesFrom, hcomment]
    rw [if_neg hcomment, if_neg hheader, hheaders, htokens, hcomments, List.append_nil]
    refine (foldlM_token_after hnumbers (Text.words line)).trans ?_
    constructor
    · rintro ⟨more, hmore, hdelimited, rfl⟩
      exact ⟨[], more, List.Forall₂.nil, hmore, hdelimited, rfl⟩
    · rintro ⟨counts, more, hcounts, hmore, hdelimited, rfl⟩
      obtain rfl := List.forall₂_nil_left_iff.mp hcounts
      exact ⟨more, hmore, hdelimited, rfl⟩

/-- Reading lines adds what they hold, line after line. -/
theorem foldlM_line_after (hnumbers : Delimited numbers) (lines : List (List Char)) :
    (lines.map Line.ofText).foldlM Reading.line (after count numbers comments) = .ok r ↔
      ∃ counts more, List.Forall₂ IsHeader (linesFrom 'p' lines) counts ∧
        (tokensOf lines).map Text.readInt? = more.map some ∧ Delimited (numbers ++ more) ∧
        r = after (counts.getLastD count) (numbers ++ more) (comments ++ commentsOf lines) := by
  induction lines generalizing count numbers comments with
  | nil =>
    constructor
    · intro h
      obtain rfl := Except.ok.inj h
      exact ⟨[], [], List.Forall₂.nil, rfl, by rwa [List.append_nil], by simp [commentsOf, linesFrom]⟩
    · rintro ⟨counts, more, hcounts, hmore, -, rfl⟩
      obtain rfl := List.forall₂_nil_left_iff.mp hcounts
      obtain rfl : more = [] := by simpa [tokensOf, tokenLines] using hmore.symm
      simp [commentsOf, linesFrom]
      rfl
  | cons line lines ih =>
    have hheaders : linesFrom 'p' (line :: lines) = linesFrom 'p' [line] ++ linesFrom 'p' lines :=
      List.filter_append [line] lines
    have htokens : tokensOf (line :: lines) = tokensOf [line] ++ tokensOf lines := by
      rw [tokensOf, tokenLines, ← List.singleton_append, List.filter_append, List.flatMap_append]
      rfl
    have hcomments : commentsOf (line :: lines) = commentsOf [line] ++ commentsOf lines := by
      rw [commentsOf, linesFrom, ← List.singleton_append, List.filter_append, List.map_append]
      rfl
    rw [List.map_cons, List.foldlM_cons, bind_eq_ok_iff, hheaders, htokens, hcomments]
    constructor
    · rintro ⟨next, hline, hlines⟩
      obtain ⟨counts, more, hcounts, hmore, hdelimited, rfl⟩ := (line_after hnumbers line).mp hline
      obtain ⟨counts', more', hcounts', hmore', hdelimited', rfl⟩ := (ih hdelimited).mp hlines
      refine ⟨counts ++ counts', more ++ more', List.rel_append hcounts hcounts', ?_, ?_, ?_⟩
      · rw [List.map_append, List.map_append, hmore, hmore']
      · rwa [← List.append_assoc]
      · rw [List.append_assoc, List.append_assoc, getLastD_append]
    · rintro ⟨counts, more, hcounts, hmore, hdelimited, rfl⟩
      rw [List.map_append] at hmore
      obtain ⟨more, more', rfl, hmore, hmore'⟩ := List.append_eq_map_iff.mp hmore
      -- The counts belong to the headers one by one, so they are cut where the headers are.
      have hfirst := (List.forall₂_take_append counts _ _ hcounts.flip).flip
      have hrest := (List.forall₂_drop_append counts _ _ hcounts.flip).flip
      rw [← List.append_assoc] at hdelimited
      refine ⟨_, (line_after hnumbers line).mpr ⟨_, more, hfirst, hmore.symm, hdelimited.of_append, rfl⟩,
        (ih hdelimited.of_append).mpr ⟨_, more', hrest, hmore'.symm, hdelimited, ?_⟩⟩
      rw [← getLastD_append, List.take_append_drop, List.append_assoc, List.append_assoc]

/-- The numbers of lines matter to errors only. -/
theorem lines_eq_ok_iff (ls : List Line) (number : Nat) {before : Reading} :
    before.lines (ls.zipIdx number) = .ok r ↔ ls.foldlM Reading.line before = .ok r := by
  induction ls generalizing number before with
  | nil => simp [lines, pure, Except.pure]
  | cons l ls ih =>
    rw [lines, List.zipIdx_cons, List.foldlM_cons, List.foldlM_cons, bind_eq_ok_iff, bind_eq_ok_iff]
    exact exists_congr fun next => and_congr mapError_eq_ok_iff (ih (number + 1))

/-- A reading can be finished before the first integer and after a zero. -/
theorem finish_after {d : Document} :
    (after count numbers comments).finish = .ok d ↔
      (numbers = [] ∨ numbers.getLast? = some 0) ∧
        d = ⟨max count.toNat (greatest numbers), (runs numbers).map (·.map Literal.ofInt), comments⟩ := by
  rw [finish]
  have hempty := current_after_isEmpty_iff count numbers comments
  -- The last clause is complete just if nothing follows the last zero.
  by_cases hended : numbers = [] ∨ numbers.getLast? = some 0
  · obtain ⟨pieces, last, hsplit, hlast⟩ := exists_splitOn_eq numbers
    obtain rfl := hlast.mpr hended
    have hclauses : (after count numbers comments).clauses
        = ((runs numbers).map (·.map Literal.ofInt)).reverse := by
      simp [after, runs, hsplit]
    rw [if_pos (hempty.mpr hended), hclauses]
    simp only [foldl_max_var_eq, List.reverse_reverse, Except.ok.injEq, hended, true_and]
    simp [after]
    exact eq_comm
  · rw [if_neg (mt hempty.mp hended)]
    simp [hended]

end Reading

/-! ### What is read -/

/-- The lines that are read are numbered from one. -/
theorem numberedLines_toList (text : String) :
    numberedLines text.toList = ((contentLines text).map Line.ofText).zipIdx 1 := rfl

/-- What is read depends on the lines before the end mark only. -/
theorem read_eq_of_contentLines {text other : String} (h : contentLines text = contentLines other) :
    read text = read other := by
  rw [read, read, numberedLines_toList, numberedLines_toList, h]

/-- A text is read if it is in the grammar. -/
theorem read_iff {text : String} {d : Document} :
    read text = .ok d ↔
      ∃ counts numbers, InGrammar text counts numbers ∧
        d = ⟨max (counts.getLastD 0).toNat (greatest numbers), (runs numbers).map (·.map Literal.ofInt),
          commentsOf (contentLines text)⟩ := by
  rw [read, bind_eq_ok_iff, numberedLines_toList]
  constructor
  · rintro ⟨r, hlines, hfinish⟩
    rw [Reading.lines_eq_ok_iff, Reading.start_eq_after, Reading.foldlM_line_after delimited_nil] at hlines
    obtain ⟨counts, numbers, hcounts, hnumbers, hdelimited, rfl⟩ := hlines
    obtain ⟨hended, rfl⟩ := Reading.finish_after.mp hfinish
    exact ⟨counts, numbers, ⟨hcounts, hnumbers, hdelimited, hended⟩, rfl⟩
  · rintro ⟨counts, numbers, h, rfl⟩
    refine ⟨_, ?_, Reading.finish_after.mpr ⟨h.ended, rfl⟩⟩
    rw [Reading.lines_eq_ok_iff, Reading.start_eq_after, Reading.foldlM_line_after delimited_nil]
    exact ⟨counts, numbers, h.headers, h.tokens, h.delimited, rfl⟩

/-- A text is refused exactly if it is not in the grammar. -/
theorem not_inGrammar_iff {text : String} :
    (∃ e, read text = .error e) ↔ ¬ ∃ counts numbers, InGrammar text counts numbers := by
  cases hread : read text with
  | ok d =>
    obtain ⟨counts, numbers, h, -⟩ := read_iff.mp hread
    simpa using ⟨counts, numbers, h⟩
  | error e =>
    refine iff_of_true ⟨e, rfl⟩ ?_
    rintro ⟨counts, numbers, h⟩
    exact nomatch hread.symm.trans (read_iff.mpr ⟨counts, numbers, h, rfl⟩)

/-- A text has at most one list of integers, and its tokens determine it. -/
theorem InGrammar.numbers_unique {text other : String} {counts counts' numbers numbers' : List Int}
    (h : InGrammar text counts numbers) (h' : InGrammar other counts' numbers')
    (htokens : tokenStream other = tokenStream text) : numbers' = numbers :=
  List.map_injective_iff.mpr (Option.some_injective Int)
    (h'.tokens.symm.trans ((congrArg _ htokens).trans h.tokens))

/-- Exactly the texts in the grammar are read, all others being refused. The clauses are the runs of
integers between the zeros, the count of variables is raised to the greatest that occurs, and texts with
the same tokens have the same clauses, wherever lines end and comments and headers stand. -/
theorem read_grammar (text : String) :
    (∀ d, read text = .ok d ↔
      ∃ counts numbers, InGrammar text counts numbers ∧
        d.clauses = (runs numbers).map (·.map Literal.ofInt) ∧
        d.numVars = max (counts.getLastD 0).toNat (greatest numbers) ∧
        d.comments = commentsOf (contentLines text)) ∧
    ((∃ e, read text = .error e) ↔ ¬ ∃ counts numbers, InGrammar text counts numbers) ∧
    ∀ other d d', tokenStream other = tokenStream text → read text = .ok d → read other = .ok d' →
      d'.clauses = d.clauses := by
  refine ⟨fun d => ?_, not_inGrammar_iff, fun other d d' htokens hread hread' => ?_⟩
  · rw [read_iff]
    refine exists_congr fun counts => exists_congr fun numbers => and_congr_right fun _ => ?_
    obtain ⟨numVars, clauses, comments⟩ := d
    rw [Document.mk.injEq]
    tauto
  · obtain ⟨counts, numbers, h, rfl⟩ := read_iff.mp hread
    obtain ⟨counts', numbers', h', rfl⟩ := read_iff.mp hread'
    rw [h.numbers_unique h' htokens]

/-- The literals of a document name the variables from one up to the count. -/
theorem var_le_of_read {text : String} {d : Document} (hread : read text = .ok d) {c : Clause}
    (hc : c ∈ d.clauses) {l : Literal} (hl : l ∈ c) : 1 ≤ l.var ∧ l.var ≤ d.numVars := by
  obtain ⟨counts, numbers, -, rfl⟩ := read_iff.mp hread
  obtain ⟨run, hrun, rfl⟩ := List.mem_map.mp hc
  obtain ⟨i, hi, rfl⟩ := List.mem_map.mp hl
  have hmem : i ∈ (runs numbers).flatten := List.mem_flatten.mpr ⟨run, hrun, hi⟩
  rw [flatten_runs, List.mem_filter, decide_eq_true_eq] at hmem
  exact ⟨Int.natAbs_pos.mpr hmem.2,
    le_trans (greatest_le_iff.mp le_rfl i hmem.1) (le_max_right _ _)⟩

end Dimacs
end VennDiagram
