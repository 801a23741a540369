import VennDiagram.Proofs.Formula.Writing

/-!
# `VennDiagram.Proofs.Formula.Comments`: what comments do to the text of a formula

A formula is written after comments, and each comment has a mark in front of it. There is one mark for a
comment, even if the comment has line ends, so its further lines have none (`furtherLines`). These are read
like any other lines: as headers, as tokens, or as the end of the text.

`read_write_comments` says which comments do no harm. Comments on one line never do. If no further line
ends the text, what is read is the formula just if each of these lines is blank, a comment by itself, or a
header that can be read (`IsSilent`), and the formula is legible. If one ends the text, then nothing of
the formula is read at all, and any other formula is read alike. `read_write_comments_ne` has a comment for
each kind of harm.

The lines of comments come first, so their integers stand in front of those of the formula. They add
literals to what is read, unless all of them are zero. But no zero may come first, so there are none of
them (`eq_nil_of_length_flatten_runs`).
-/

set_option autoImplicit false

namespace VennDiagram.Dimacs

variable {f : Formula} {comments : List String}

/-! ### The lines of comments -/

/-- The lines of a comment after its first, without the blanks at their ends. They have no mark. -/
def furtherLines (comment : String) : List (List Char) :=
  (Text.lines (comment.toList ++ ['\n'])).tail.map Text.trim

/-- The lines that comments take in a text, without the blanks at their ends. -/
def commentLines (comments : List String) : List (List Char) :=
  comments.flatMap fun s => (Text.lines (commentLine s ++ ['\n'])).map Text.trim

/-- The line ends the text. -/
def IsEndMark (line : List Char) : Prop := line.head? = some '%'

/-- The line says nothing about clauses: it is blank, a comment, or a header that can be read. -/
def IsSilent (line : List Char) : Prop :=
  line = [] ∨ line.head? = some 'c' ∨ line.head? = some 'p' ∧ ∃ count, IsHeader line count

/-- Only the first line of a comment has the mark. -/
theorem exists_lines_commentLine (comment : String) :
    ∃ first, (Text.lines (commentLine comment ++ ['\n'])).map Text.trim
      = Text.trim ('c' :: first) :: furtherLines comment := by
  obtain ⟨first, more, hlines⟩ : ∃ first more, Text.lines (comment.toList ++ ['\n']) = first :: more :=
    List.exists_cons_of_ne_nil (Text.lines_newline_ne_nil _)
  have hspace : Text.lines (' ' :: comment.toList ++ ['\n']) = (' ' :: first) :: more := by
    rw [Text.lines_cons (by decide), hlines, List.modifyHead_cons]
  have hmark : Text.lines ('c' :: ' ' :: comment.toList ++ ['\n']) = ('c' :: ' ' :: first) :: more := by
    rw [Text.lines_cons (by decide), hspace, List.modifyHead_cons]
  refine ⟨' ' :: first, ?_⟩
  rw [commentLine, hmark, furtherLines, hlines]
  rfl

/-- What holds of every comment on one line holds of the lines of comments just if it holds of the
further lines. -/
theorem forall_mem_commentLines {p : List Char → Prop} (hp : ∀ line, line.head? = some 'c' → p line) :
    (∀ line ∈ commentLines comments, p line) ↔ ∀ s ∈ comments, ∀ line ∈ furtherLines s, p line := by
  rw [commentLines, List.forall_mem_flatMap]
  refine forall₂_congr fun s _ => ?_
  obtain ⟨first, hlines⟩ := exists_lines_commentLine s
  rw [hlines, List.forall_mem_cons]
  exact and_iff_right (hp _ (congrArg List.head? (Text.trim_cons (by decide) first)))

/-- The lines of comments are trimmed already. -/
theorem trim_of_mem_commentLines (comments : List String) :
    ∀ line ∈ commentLines comments, Text.trim line = line := by
  intro line hline
  obtain ⟨s, -, hline⟩ := List.mem_flatMap.mp hline
  obtain ⟨raw, -, rfl⟩ := List.mem_map.mp hline
  exact Text.trim_trim raw

/-- The lines of a text are those of the comments and those of the formula. -/
theorem lines_write (f : Formula) (comments : List String) :
    (Text.lines (write f comments).toList).map Text.trim
      = commentLines comments ++ (Text.lines (write f []).toList).map Text.trim := by
  rw [toList_write, toList_write, Text.lines_flatMap_newline, Text.lines_flatMap_newline,
    List.flatMap_append, List.map_append, List.map_nil, List.nil_append, List.flatMap_map,
    List.map_flatMap]
  rfl

/-- If no line of a comment ends the text, the formula follows. -/
theorem contentLines_write_of_not_end (hends : ∀ line ∈ commentLines comments, ¬ IsEndMark line) :
    contentLines (write f comments) = commentLines comments ++ contentLines (write f []) := by
  rw [contentLines, lines_write]
  exact List.takeWhile_append_of_pos fun line hline => bne_iff_ne.mpr (hends line hline)

/-- If one does, it does not matter what follows. -/
theorem contentLines_write_of_end (hends : ∃ line ∈ commentLines comments, IsEndMark line)
    (g : Formula) : contentLines (write g comments) = contentLines (write f comments) := by
  have hcut (f : Formula) : contentLines (write f comments)
      = (commentLines comments).takeWhile fun line => line.head? != some '%' := by
    have hne : ¬ ((commentLines comments).takeWhile fun line => line.head? != some '%').length
        = (commentLines comments).length := by
      intro hlength
      obtain ⟨line, hline, hmark⟩ := hends
      have hall := (List.takeWhile_prefix _).eq_of_length hlength
      exact bne_iff_ne.mp (List.takeWhile_eq_self_iff.mp hall line hline) hmark
    rw [contentLines, lines_write, List.takeWhile_append, if_neg hne]
  rw [hcut g, hcut f]

/-! ### What is read -/

/-- Lines that are silent have no tokens, and their headers can be read. -/
theorem forall_isSilent_iff {lines : List (List Char)} (htrim : ∀ line ∈ lines, Text.trim line = line) :
    (∀ line ∈ lines, IsSilent line) ↔
      tokensOf lines = [] ∧ ∀ line ∈ linesFrom 'p' lines, ∃ count, IsHeader line count := by
  constructor
  · intro hsilent
    have htokens : tokenLines lines = [] := by
      refine List.filter_eq_nil_iff.mpr fun line hline => ?_
      rcases hsilent line hline with hnil | hc | ⟨hp, -⟩
      · simp [hnil]
      · simp [hc]
      · simp [hp]
    refine ⟨by rw [tokensOf, htokens, List.flatMap_nil], fun line hline => ?_⟩
    obtain ⟨hline, hp⟩ := List.mem_filter.mp hline
    replace hp : line.head? = some 'p' := of_decide_eq_true hp
    rcases hsilent line hline with rfl | hc | ⟨-, hcount⟩
    · exact absurd hp (by simp)
    · exact absurd (hc.symm.trans hp) (by decide)
    · exact hcount
  · rintro ⟨htokens, hheaders⟩ line hline
    by_cases hp : line.head? = some 'p'
    · have hmem : line ∈ linesFrom 'p' lines := List.mem_filter.mpr ⟨hline, decide_eq_true hp⟩
      exact Or.inr (Or.inr ⟨hp, hheaders line hmem⟩)
    by_contra hloud
    obtain ⟨hnil, hc, -⟩ := by simpa only [IsSilent, not_or] using hloud
    -- The line would be one with tokens, and it is not blank, so it has a word.
    have hmem : line ∈ tokenLines lines := List.mem_filter.mpr ⟨hline, decide_eq_true ⟨hnil, hc, hp⟩⟩
    have hwords : Text.words line = [] := List.flatMap_eq_nil_iff.mp htokens line hmem
    exact hnil ((htrim line hline).symm.trans (Text.words_eq_nil_iff.mp hwords))

/-- Integers in front of others add literals to the clauses, for they cannot all be zero. -/
theorem eq_nil_of_length_flatten_runs {before numbers : List Int} (hdelimited : Delimited (before ++ numbers))
    (hlength : (runs (before ++ numbers)).flatten.length = (runs numbers).flatten.length) :
    before = [] := by
  rw [flatten_runs, flatten_runs, List.filter_append, List.length_append] at hlength
  have hzero : before.filter (· ≠ 0) = [] := List.length_eq_zero_iff.mp (by omega)
  cases before with
  | nil => rfl
  | cons i before =>
    have hi : i = 0 := by simpa using List.filter_eq_nil_iff.mp hzero i List.mem_cons_self
    exact absurd (congrArg some hi) hdelimited.head_ne

section
variable (hends : ∀ line ∈ commentLines comments, ¬ IsEndMark line)
include hends

/-- The lines that are read as headers are those among the comments and the written one. -/
theorem linesFrom_headers_write :
    linesFrom 'p' (contentLines (write f comments))
      = linesFrom 'p' (commentLines comments) ++ [Text.trim (headerLine f)] := by
  have hheader : linesFrom 'p' (contentLines (write f [])) = [Text.trim (headerLine f)] := by
    rw [contentLines_write (by simp), (arranged_written f []).linesFrom_headers]
  rw [contentLines_write_of_not_end hends, linesFrom, List.filter_append]
  exact congrArg (_ ++ ·) hheader

/-- The words that are read as integers are those among the comments and the written ones. -/
theorem tokenStream_write_comments :
    tokenStream (write f comments) = tokensOf (commentLines comments) ++ (written f).map numeral := by
  have hformula : tokenStream (write f []) = (written f).map numeral := tokenStream_write (by simp)
  rw [tokenStream, contentLines_write_of_not_end hends, tokensOf, tokenLines, List.filter_append,
    List.flatMap_append, ← hformula]
  rfl

/-- If what is read has the clauses of the formula, the comments have no tokens. -/
theorem tokensOf_commentLines_eq_nil (hf : f.Closed) (hlegible : f.Legible) {d : Document}
    (hread : read (write f comments) = .ok d) (hclauses : d.clauses = f.clauses) :
    tokensOf (commentLines comments) = [] := by
  obtain ⟨counts, numbers, hgrammar, rfl⟩ := read_iff.mp hread
  -- The integers of the text are those of the comments, and then those of the formula.
  have htokens := hgrammar.tokens
  rw [tokenStream_write_comments hends, List.map_append, map_readInt?_written hf hlegible.numVars_lt,
    List.append_eq_map_iff] at htokens
  obtain ⟨before, after, rfl, hbefore, hafter⟩ := htokens
  obtain rfl := List.map_injective_iff.mpr (Option.some_injective Int) hafter
  -- They are read as the same clauses as those of the formula alone.
  have hlengths := congrArg (fun cs : List Clause => cs.flatten.length)
    (hclauses.trans (map_runs_written hf hlegible.ne_nil).symm)
  simp only [← List.map_flatten, List.length_map] at hlengths
  rw [eq_nil_of_length_flatten_runs hgrammar.delimited hlengths, List.map_nil] at hbefore
  exact List.map_eq_nil_iff.mp hbefore.symm

/-- What is read is the formula just if the formula is legible and the lines of the comments are silent. -/
theorem read_write_iff_of_not_end (hf : f.Closed) :
    (∃ d, read (write f comments) = .ok d ∧ d.numVars = f.numVars ∧ d.clauses = f.clauses) ↔
      f.Legible ∧ ∀ line ∈ commentLines comments, IsSilent line := by
  have hsilent := forall_isSilent_iff (trim_of_mem_commentLines comments)
  constructor
  · rintro ⟨d, hread, hvars, hclauses⟩
    have hlegible : f.Legible := by
      have hsame : d.formula = f := by rw [Document.formula, hvars, hclauses]
      exact hsame ▸ legible_formula hread
    obtain ⟨counts, numbers, hgrammar, -⟩ := read_iff.mp hread
    have hheaders := exists_of_forall₂ hgrammar.headers
    rw [linesFrom_headers_write hends] at hheaders
    exact ⟨hlegible, hsilent.mpr ⟨tokensOf_commentLines_eq_nil hends hf hlegible hread hclauses,
      fun line hline => hheaders line (List.mem_append_left _ hline)⟩⟩
  · rintro ⟨hlegible, hlines⟩
    obtain ⟨htokens, hheaders⟩ := hsilent.mp hlines
    obtain ⟨counts, hcounts⟩ := exists_forall₂_iff.mpr hheaders
    have hgrammar : InGrammar (write f comments) (counts ++ [(f.numVars : Int)]) (written f) := by
      refine ⟨?_, ?_, (delimited_written_iff hf).mpr hlegible.ne_nil, ended_eq_nil_or_getLast? _⟩
      · rw [linesFrom_headers_write hends]
        have hheader := isHeader_headerLine_iff.mpr ⟨hlegible.numVars_lt, rfl⟩
        exact List.rel_append hcounts (List.Forall₂.cons hheader List.Forall₂.nil)
      · rw [tokenStream_write_comments hends, htokens, List.nil_append,
          map_readInt?_written hf hlegible.numVars_lt]
    refine ⟨_, read_iff.mpr ⟨_, _, hgrammar, rfl⟩, ?_, map_runs_written hf hlegible.ne_nil⟩
    -- The header of the formula comes last, so its count is the one that is kept.
    show max ((counts ++ [(f.numVars : Int)]).getLastD 0).toNat (greatest (written f)) = f.numVars
    rw [getLastD_append]
    exact max_eq_left (greatest_le_iff.mpr (natAbs_le_of_mem_written hf))

end

/-! ### Comments that do no harm, and others -/

/-- Comments on one line do not change what is read. If no further line of a comment ends the text, what
is read is the formula just if the formula is legible and the further lines are silent. If one ends the
text, what is read does not depend on the formula. The formula is written whatever the comments are, unless
its count of variables is too long. -/
theorem read_write_comments (hf : f.Closed) (comments : List String) :
    ((∀ s ∈ comments, OnOneLine s) → f.Legible →
      read (write f comments)
        = .ok ⟨f.numVars, f.clauses, comments.map fun s => String.ofList (Text.trim s.toList)⟩) ∧
    ((∀ s ∈ comments, ∀ line ∈ furtherLines s, ¬ IsEndMark line) →
      ((∃ d, read (write f comments) = .ok d ∧ d.numVars = f.numVars ∧ d.clauses = f.clauses) ↔
        f.Legible ∧ ∀ s ∈ comments, ∀ line ∈ furtherLines s, IsSilent line)) ∧
    ((∃ s ∈ comments, ∃ line ∈ furtherLines s, IsEndMark line) →
      ∀ g, read (write g comments) = read (write f comments)) ∧
    (dump f comments = .ok (write f comments) ↔ f.numVars < 10 ^ Text.digitLimit) := by
  -- The line that a comment begins with has its mark, so only a further line can end the text.
  have hends : (∀ line ∈ commentLines comments, ¬ IsEndMark line) ↔
      ∀ s ∈ comments, ∀ line ∈ furtherLines s, ¬ IsEndMark line :=
    forall_mem_commentLines fun line hc hend => absurd (hc.symm.trans hend) (by decide)
  refine ⟨fun hcomments hlegible => ?_, fun hnone => ?_, fun hsome g => ?_, dump_eq_ok_iff hf comments⟩
  · exact (read_write_eq_ok_iff hf hcomments).mpr ⟨hlegible, rfl⟩
  · rw [read_write_iff_of_not_end (hends.mpr hnone) hf]
    exact and_congr_right' (forall_mem_commentLines fun line hc => Or.inr (Or.inl hc))
  · refine read_eq_of_contentLines (contentLines_write_of_end ?_ g)
    by_contra hnone
    obtain ⟨s, hs, line, hline, hend⟩ := hsome
    exact hends.mp (fun line hline hend => hnone ⟨line, hline, hend⟩) s hs line hline hend

/-- One variable and a clause that asks for it. -/
def oneClause : Formula := ⟨1, [[.yes 1]]⟩

/-- The formula names its own variable. -/
theorem closed_oneClause : oneClause.Closed := by
  rw [oneClause, Formula.Closed]
  decide

/-- It can be written and read. -/
theorem legible_oneClause : oneClause.Legible where
  ne_nil := by decide
  numVars_lt :=
    calc 1 < 10 ^ 1 := by decide
      _ ≤ 10 ^ Text.digitLimit := Nat.pow_le_pow_right (by decide) (by decide)

/-- A comment whose second line has a mark of its own, and whose third line is blank. -/
def markedComment : String := "made by hand\nc and checked\n"

/-- A comment whose second line has its own mark is read as a comment. -/
theorem read_write_comments_marked :
    oneClause.Closed ∧ (∀ line ∈ furtherLines markedComment, ¬ IsEndMark line) ∧
    oneClause.Legible ∧ (∀ line ∈ furtherLines markedComment, IsSilent line) ∧
    dump oneClause [markedComment] = .ok (write oneClause [markedComment]) ∧
    ∃ d, read (write oneClause [markedComment]) = .ok d ∧ d.numVars = 1 ∧ d.clauses = [[.yes 1]] := by
  have hfurther : furtherLines markedComment = ["c and checked".toList, []] := by cbv
  have hends : ∀ line ∈ furtherLines markedComment, ¬ IsEndMark line := by
    rw [hfurther]
    simp [IsEndMark]
  have hsilent : ∀ line ∈ furtherLines markedComment, IsSilent line := by
    rw [hfurther]
    simp [IsSilent]
  obtain ⟨-, hread, -, hwritten⟩ := read_write_comments closed_oneClause [markedComment]
  exact ⟨closed_oneClause, hends, legible_oneClause, hsilent,
    hwritten.mpr legible_oneClause.numVars_lt,
    (hread (List.forall_mem_singleton.mpr hends)).mpr
      ⟨legible_oneClause, List.forall_mem_singleton.mpr hsilent⟩⟩

/-- The second line of a comment may be read as a clause, and a formula with a model becomes one without.
It may also end the text, or be refused. -/
theorem read_write_comments_ne :
    (oneClause.Closed ∧ oneClause.Legible ∧ write oneClause ["a\n-1 0"] = "c a\n-1 0\np cnf 1 1\n1 0\n" ∧
      read (write oneClause ["a\n-1 0"]) = .ok ⟨1, [[.no 1], [.yes 1]], ["a"]⟩) ∧
    read (write oneClause ["a\n%"]) = .ok ⟨0, [], ["a"]⟩ ∧
    read (write oneClause ["made by\nhand"]) = .error (.atLine 2 (.invalidLiteral "hand")) :=
  ⟨⟨closed_oneClause, legible_oneClause, by decide, by decide⟩, by decide, by decide⟩

end VennDiagram.Dimacs
