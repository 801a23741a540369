import Mathlib
import VennDiagram.Proofs.Formula.Closed
import VennDiagram.Proofs.Formula.Session
import VennDiagram.Proofs.Text.Numeral
import VennDiagram.Proofs.Text.Words

/-!
# `VennDiagram.Proofs.Formula.Writing`: reading the text of a formula that was written

A formula is written as comments, a header with its counts, and one line for each clause. If it names
allocated variables only, this text is read as the same formula, unless it has an empty clause or a count
of variables that is too long to be read (`read_write_eq_ok_iff`, `Formula.Legible`). There are two uses:

* `read_write_of_read`: what was read from any text, written and read again, is the same document. No
  text makes an empty clause or a count that is too long (`legible_formula`), and its comments are on one
  line, without blanks at their ends (`trim_of_mem_comments`).
* `read_write_after`: whatever calls a formula was built with, its text is read as the same formula if it
  is legible. A call may add an empty clause, and `not_read_after_write` has such a formula.

The way leads through the grammar of texts. The lines that were written are comments, one header, and
lines that begin like integers (`Arranged`), so their kinds are known without looking inside. The words
of these lines are the integers of the formula with a zero after each clause (`tokenStream_write`), and
such integers are delimited just if no clause is empty (`delimited_ended_iff`).
-/

set_option autoImplicit false

namespace VennDiagram

/-- The formula can be written and read: no clause is empty, and the count of variables has no more
digits than are read. -/
structure Formula.Legible (f : Formula) : Prop where
  ne_nil : ∀ c ∈ f.clauses, c ≠ []
  numVars_lt : f.numVars < 10 ^ Text.digitLimit

namespace Dimacs

/-! ### Integers between zeros -/

/-- The clauses of integers, each ended by a zero. -/
def ended (cs : List (List Int)) : List Int := cs.flatMap (· ++ [0])

/-- Integers other than zero may follow whatever is delimited. -/
theorem Delimited.append {numbers more : List Int} (h : Delimited numbers) (hmore : 0 ∉ more) :
    Delimited (numbers ++ more) := by
  induction more using List.reverseRecOn with
  | nil => rwa [List.append_nil]
  | append_singleton more i ih =>
    have hi : i ≠ 0 := by
      rintro rfl
      exact hmore (by simp)
    rw [← List.append_assoc, delimited_append_iff]
    exact ⟨ih fun h0 => hmore (List.mem_append_left _ h0), fun h0 => absurd h0 hi⟩

/-- The integers of clauses end with a zero, if there are any. -/
theorem ended_eq_nil_or_getLast? (cs : List (List Int)) :
    ended cs = [] ∨ (ended cs).getLast? = some 0 := by
  rcases List.eq_nil_or_concat' cs with rfl | ⟨before, c, rfl⟩
  · exact Or.inl rfl
  · exact Or.inr (by simp [ended, ← List.append_assoc])

/-- Ended clauses are delimited if none of them is empty. -/
theorem delimited_ended_iff {cs : List (List Int)} (hcs : ∀ c ∈ cs, 0 ∉ c) :
    Delimited (ended cs) ↔ ∀ c ∈ cs, c ≠ [] := by
  induction cs using List.reverseRecOn with
  | nil => exact iff_of_true delimited_nil (by simp)
  | append_singleton cs c ih =>
    have hc : 0 ∉ c := hcs c (by simp)
    have hstep : ended (cs ++ [c]) = (ended cs ++ c) ++ [0] := by simp [ended]
    rw [hstep, delimited_append_iff]
    constructor
    · rintro ⟨hdelimited, hzero⟩ c' hc'
      rcases List.mem_append.mp hc' with hc' | hc'
      · exact (ih fun c hc => hcs c (List.mem_append_left _ hc)).mp hdelimited.of_append c' hc'
      · rw [List.mem_singleton.mp hc']
        rintro rfl
        rw [List.append_nil] at hzero
        exact hzero rfl (ended_eq_nil_or_getLast? cs)
    · intro hne
      have hdelimited := (ih fun c hc => hcs c (List.mem_append_left _ hc)).mpr fun c hc =>
        hne c (List.mem_append_left _ hc)
      refine ⟨hdelimited.append hc, ?_⟩
      rintro - (hnil | hlast)
      · exact hne c (by simp) (List.append_eq_nil_iff.mp hnil).2
      · -- The last integer is that of a clause, hence no zero.
        rw [List.getLast?_append_of_ne_nil _ (hne c (by simp))] at hlast
        exact hc (List.mem_of_getLast? hlast)

/-- The runs of ended clauses are the clauses. -/
theorem runs_ended {cs : List (List Int)} (hcs : ∀ c ∈ cs, 0 ∉ c) (hne : ∀ c ∈ cs, c ≠ []) :
    runs (ended cs) = cs := by
  -- Nothing follows the last zero, so the last piece is empty, and it is dropped.
  have hsplit : (ended cs).splitOn 0 = cs ++ [[]] := by
    induction cs with
    | nil => exact List.splitOn_nil 0
    | cons c cs ih =>
      obtain ⟨hc, hcs⟩ := List.forall_mem_cons.mp hcs
      rw [ended, List.flatMap_cons, List.append_assoc, List.singleton_append,
        List.splitOn_append_cons_self_of_not_mem hc]
      exact congrArg (c :: ·) (ih hcs (List.forall_mem_cons.mp hne).2)
  have hkeep : cs.filter (!·.isEmpty) = cs := List.filter_eq_self.mpr fun c hc => by simp [hne c hc]
  rw [runs, hsplit, List.filter_append, hkeep]
  simp

/-! ### The written lines -/

/-- An integer as it is written. -/
def numeral (i : Int) : List Char := (toString i).toList

/-- The line of a comment. -/
def commentLine (comment : String) : List Char := 'c' :: ' ' :: comment.toList

/-- The line of the counts. -/
def headerLine (f : Formula) : List Char :=
  [' '].intercalate [['p'], ['c', 'n', 'f'], numeral f.numVars, numeral f.clauses.length]

/-- The integers of a clause. -/
def integers (c : Clause) : List Int := c.map Literal.toInt

/-- The line of a clause. -/
def clauseLine (c : Clause) : List Char := [' '].intercalate ((integers c ++ [0]).map numeral)

variable {f : Formula} {comments : List String}

/-- Line feeds between lines and at the end are line feeds after each line. -/
theorem intercalate_append_newline {ls : List (List Char)} (hls : ls ≠ []) :
    ['\n'].intercalate ls ++ ['\n'] = ls.flatMap (· ++ ['\n']) := by
  induction ls with
  | nil => exact absurd rfl hls
  | cons l ls ih =>
    cases ls with
    | nil => simp
    | cons l' ls =>
      rw [List.intercalate_cons_cons, List.append_assoc, ih (List.cons_ne_nil _ _)]
      rfl

/-- The text of a clause is its line. -/
theorem toList_writeClause (c : Clause) : (writeClause c).toList = clauseLine c := by
  have hzero : numeral 0 = "0".toList := rfl
  rw [writeClause, String.toList_intercalate, clauseLine, integers, List.map_append, List.map_append]
  simp only [List.map_map, List.map_cons, List.map_nil, hzero]
  rfl

/-- The text of the counts is their line. -/
theorem toList_header (f : Formula) :
    ("p cnf " ++ toString f.numVars ++ " " ++ toString f.clauses.length).toList = headerLine f := by
  simp [headerLine, numeral, List.intercalate_cons_cons, Int.repr_eq_if]

/-- The text of a formula is its lines, each ended by a line feed. -/
theorem toList_write (f : Formula) (comments : List String) :
    (write f comments).toList
      = (comments.map commentLine ++ headerLine f :: f.clauses.map clauseLine).flatMap (· ++ ['\n']) := by
  rw [write, String.toList_append, String.toList_intercalate]
  refine Eq.trans ?_ (intercalate_append_newline (by simp))
  congr 2
  rw [List.map_append, List.map_cons, List.map_map, List.map_map, toList_header]
  congr 2
  · funext comment
    exact String.toList_append
  · exact List.map_congr_left fun c _ => toList_writeClause c

/-! ### The lines that are read -/

/-- The comment has no line ends. -/
def OnOneLine (comment : String) : Prop := ∀ c ∈ comment.toList, Text.isLineEnd c = false

/-- An integer is written as a word. -/
theorem isWord_numeral (i : Int) : Text.IsWord (numeral i) where
  ne_nil := by
    obtain ⟨c, rest, hlist, -⟩ := Text.exists_toList_toString i
    rw [numeral, hlist]
    exact List.cons_ne_nil c rest
  not_blank _ := Text.isBlank_of_mem_toString

/-- The line of the counts is put together from words. -/
theorem isWord_of_mem_header (f : Formula) :
    ∀ w ∈ [['p'], ['c', 'n', 'f'], numeral f.numVars, numeral f.clauses.length], Text.IsWord w := by
  have hmark : Text.IsWord ['p'] := ⟨by simp, by simp [Text.isBlank]⟩
  have hformat : Text.IsWord ['c', 'n', 'f'] := ⟨by simp, by simp [Text.isBlank]⟩
  simp [hmark, hformat, isWord_numeral]

/-- So is the line of a clause. -/
theorem isWord_of_mem_numerals {is : List Int} : ∀ w ∈ is.map numeral, Text.IsWord w := by
  intro w hw
  obtain ⟨i, -, rfl⟩ := List.mem_map.mp hw
  exact isWord_numeral i

/-- No line ends before its end. -/
theorem isLineEnd_of_mem_written (hcomments : ∀ s ∈ comments, OnOneLine s) :
    ∀ l ∈ comments.map commentLine ++ headerLine f :: f.clauses.map clauseLine,
      ∀ c ∈ l, Text.isLineEnd c = false := by
  intro l hl
  rcases List.mem_append.mp hl with hl | hl
  · obtain ⟨s, hs, rfl⟩ := List.mem_map.mp hl
    exact List.forall_mem_cons.mpr ⟨by decide, List.forall_mem_cons.mpr ⟨by decide, hcomments s hs⟩⟩
  rcases List.mem_cons.mp hl with rfl | hl
  · exact Text.isLineEnd_of_mem_intercalate (isWord_of_mem_header f)
  · obtain ⟨c, -, rfl⟩ := List.mem_map.mp hl
    exact Text.isLineEnd_of_mem_intercalate isWord_of_mem_numerals

/-- Lines that are comments, one header, and lines that begin like integers. -/
structure Arranged (cs : List (List Char)) (h : List Char) (ts : List (List Char)) : Prop where
  comments : ∀ l ∈ cs, l.head? = some 'c'
  header : h.head? = some 'p'
  tokens : ∀ l ∈ ts, ∃ x, l.head? = some x ∧ (x = '-' ∨ x.isDigit = true)

namespace Arranged

variable {cs ts : List (List Char)} {h : List Char}

/-- A line that begins like an integer begins with no mark of another kind. -/
theorem head_ne {l : List Char} (hl : ∃ x, l.head? = some x ∧ (x = '-' ∨ x.isDigit = true)) (mark : Char)
    (hmark : mark ≠ '-') (hdigit : mark.isDigit = false) : l.head? ≠ some mark := by
  obtain ⟨x, hx, hkind⟩ := hl
  intro hhead
  obtain rfl := Option.some.inj (hx.symm.trans hhead)
  simp [hmark, hdigit] at hkind

/-- No line ends the text. -/
theorem takeWhile_eq (ha : Arranged cs h ts) :
    (cs ++ h :: ts).takeWhile (fun line => line.head? != some '%') = cs ++ h :: ts := by
  refine List.takeWhile_eq_self_iff.mpr fun l hl => ?_
  rw [bne_iff_ne]
  rcases List.mem_append.mp hl with hl | hl
  · rw [ha.comments l hl]
    decide
  rcases List.mem_cons.mp hl with rfl | hl
  · rw [ha.header]
    decide
  · exact head_ne (ha.tokens l hl) _ (by decide) (by decide)

/-- The lines that are read as comments are the written comments. -/
theorem linesFrom_comments (ha : Arranged cs h ts) : linesFrom 'c' (cs ++ h :: ts) = cs := by
  have hcs : linesFrom 'c' cs = cs := List.filter_eq_self.mpr fun l hl => by simp [ha.comments l hl]
  have hrest : linesFrom 'c' (h :: ts) = [] := by
    refine List.filter_eq_nil_iff.mpr (List.forall_mem_cons.mpr ⟨by simp [ha.header], fun l hl => ?_⟩)
    simpa using head_ne (ha.tokens l hl) _ (by decide) (by decide)
  rw [linesFrom, List.filter_append]
  exact (congrArg₂ (· ++ ·) hcs hrest).trans (List.append_nil cs)

/-- The one line that is read as a header is the written one. -/
theorem linesFrom_headers (ha : Arranged cs h ts) : linesFrom 'p' (cs ++ h :: ts) = [h] := by
  have hcs : linesFrom 'p' cs = [] := List.filter_eq_nil_iff.mpr fun l hl => by simp [ha.comments l hl]
  have hts : linesFrom 'p' ts = [] := by
    refine List.filter_eq_nil_iff.mpr fun l hl => ?_
    simpa using head_ne (ha.tokens l hl) _ (by decide) (by decide)
  rw [linesFrom, List.filter_append, List.filter_cons_of_pos (by simp [ha.header])]
  exact congrArg₂ (fun before rest => before ++ h :: rest) hcs hts

/-- The lines that are read as integers are those of the clauses. -/
theorem tokenLines_eq (ha : Arranged cs h ts) : tokenLines (cs ++ h :: ts) = ts := by
  have hcs : tokenLines cs = [] := List.filter_eq_nil_iff.mpr fun l hl => by simp [ha.comments l hl]
  have hts : tokenLines ts = ts := by
    refine List.filter_eq_self.mpr fun l hl => ?_
    have hc := head_ne (ha.tokens l hl) 'c' (by decide) (by decide)
    have hp := head_ne (ha.tokens l hl) 'p' (by decide) (by decide)
    obtain ⟨x, hx, -⟩ := ha.tokens l hl
    have hne : l ≠ [] := by
      rintro rfl
      exact nomatch hx
    simp [hne, hc, hp]
  rw [tokenLines, List.filter_append, List.filter_cons_of_neg (by simp [ha.header])]
  exact congrArg₂ (· ++ ·) hcs hts

end Arranged

/-- The header keeps its mark when blanks around it are dropped. -/
theorem trim_headerLine (f : Formula) : (Text.trim (headerLine f)).head? = some 'p' :=
  congrArg List.head? (Text.trim_cons (by decide) _)

/-- What follows the mark of a comment is the comment, but for blanks at its ends. -/
theorem trim_commentLine (comment : String) :
    ∃ rest, Text.trim (commentLine comment) = 'c' :: rest ∧
      Text.trim rest = Text.trim comment.toList := by
  refine ⟨_, Text.trim_cons (by decide) _, ?_⟩
  rw [Text.trim_trimEnd, Text.trim_cons_of_blank (by decide)]

/-- So does a clause keep its first sign or digit. -/
theorem trim_clauseLine (c : Clause) :
    ∃ x, (Text.trim (clauseLine c)).head? = some x ∧ (x = '-' ∨ x.isDigit = true) := by
  -- The `0` at the end makes even the line of an empty clause start with a numeral.
  obtain ⟨i, is, his⟩ : ∃ i is, integers c ++ [0] = i :: is := List.exists_cons_of_ne_nil (by simp)
  obtain ⟨x, rest, hlist, hx⟩ := Text.exists_toList_toString i
  have hline : ∃ more, clauseLine c = x :: more := by
    rw [clauseLine, his, List.map_cons, numeral, hlist]
    cases is with
    | nil => exact ⟨rest, by simp⟩
    | cons j is => exact ⟨_, by rw [List.map_cons, List.intercalate_cons_cons]; rfl⟩
  obtain ⟨more, hmore⟩ := hline
  have hblank : Text.isBlank x = false := by
    rcases hx with rfl | hx
    · decide
    · exact Text.isBlank_of_isDigit hx
  exact ⟨x, by rw [hmore, Text.trim_cons hblank]; rfl, hx⟩

/-- The lines of a written formula, without the blanks at their ends. -/
theorem arranged_written (f : Formula) (comments : List String) :
    Arranged ((comments.map commentLine).map Text.trim) (Text.trim (headerLine f))
      ((f.clauses.map clauseLine).map Text.trim) where
  comments := by
    simp only [List.map_map, List.forall_mem_map]
    intro comment _
    obtain ⟨rest, hrest, -⟩ := trim_commentLine comment
    exact congrArg List.head? hrest
  header := trim_headerLine f
  tokens := by
    simp only [List.map_map, List.forall_mem_map]
    exact fun c _ => trim_clauseLine c

/-- Without line ends in the comments, the lines that are read are the written ones, trimmed. -/
theorem contentLines_write (hcomments : ∀ s ∈ comments, OnOneLine s) :
    contentLines (write f comments)
      = (comments.map commentLine).map Text.trim ++ Text.trim (headerLine f) ::
          (f.clauses.map clauseLine).map Text.trim := by
  rw [contentLines, toList_write, Text.lines_flatMap _ (isLineEnd_of_mem_written hcomments),
    List.map_append, List.map_cons, (arranged_written f comments).takeWhile_eq]

/-! ### What is read -/

/-- The integers of a written formula. -/
def written (f : Formula) : List Int := ended (f.clauses.map integers)

/-- The words that are read are the integers that were written. -/
theorem tokenStream_write (hcomments : ∀ s ∈ comments, OnOneLine s) :
    tokenStream (write f comments) = (written f).map numeral := by
  rw [tokenStream, contentLines_write hcomments, tokensOf, (arranged_written f comments).tokenLines_eq,
    written, ended, List.map_flatMap, List.flatMap_map, List.flatMap_map, List.flatMap_map]
  refine List.flatMap_congr fun c _ => ?_
  rw [Text.words_trim, clauseLine, Text.words_intercalate isWord_of_mem_numerals]

/-- The comments that are read are the written ones, trimmed. -/
theorem commentsOf_write (hcomments : ∀ s ∈ comments, OnOneLine s) :
    commentsOf (contentLines (write f comments))
      = comments.map fun s => String.ofList (Text.trim s.toList) := by
  rw [contentLines_write hcomments, commentsOf, (arranged_written f comments).linesFrom_comments,
    List.map_map, List.map_map]
  refine List.map_congr_left fun comment _ => ?_
  obtain ⟨rest, hrest, htrim⟩ := trim_commentLine comment
  show String.ofList (Text.trim (Text.trim (commentLine comment)).tail) = _
  rw [hrest, List.tail_cons, htrim]

/-- The header is read if the count is not too long. -/
theorem isHeader_headerLine_iff {count : Int} :
    IsHeader (Text.trim (headerLine f)) count ↔
      f.numVars < 10 ^ Text.digitLimit ∧ count = f.numVars := by
  have hwords := Text.words_intercalate (isWord_of_mem_header f)
  have hread : Text.readInt? (numeral f.numVars)
      = if f.numVars < 10 ^ Text.digitLimit then some (f.numVars : Int) else none :=
    Text.readInt?_toString f.numVars
  rw [IsHeader, Text.words_trim, headerLine, hwords]
  constructor
  · rintro ⟨mark, number, clauses, hlist, hcount⟩
    simp only [List.cons.injEq, and_true] at hlist
    obtain ⟨-, -, rfl, -⟩ := hlist
    rw [hread] at hcount
    split at hcount
    case isTrue hlt => exact ⟨hlt, (Option.some.inj hcount).symm⟩
    case isFalse => exact nomatch hcount
  · rintro ⟨hlt, rfl⟩
    exact ⟨_, _, _, rfl, by rw [hread, if_pos hlt]⟩

section
variable (hf : f.Closed)
include hf

/-- No literal is written as zero. -/
theorem zero_notMem_integers : ∀ is ∈ f.clauses.map integers, 0 ∉ is := by
  intro is his h0
  obtain ⟨c, hc, rfl⟩ := List.mem_map.mp his
  obtain ⟨l, hl, hzero⟩ := List.mem_map.mp h0
  exact Literal.toInt_ne_zero (hf c hc l hl).1 hzero

/-- No written integer is greater than the number of variables. -/
theorem natAbs_le_of_mem_written : ∀ i ∈ written f, i.natAbs ≤ f.numVars := by
  intro i hi
  obtain ⟨is, his, hi⟩ := List.mem_flatMap.mp hi
  obtain ⟨c, hc, rfl⟩ := List.mem_map.mp his
  rcases List.mem_append.mp hi with hi | hi
  · obtain ⟨l, hl, rfl⟩ := List.mem_map.mp hi
    rw [Literal.natAbs_toInt]
    exact (hf c hc l hl).2
  · rw [List.mem_singleton.mp hi]
    exact Nat.zero_le _

/-- Integers that have no more digits than are read are read as what they are. -/
theorem map_readInt?_written (hlt : f.numVars < 10 ^ Text.digitLimit) :
    ((written f).map numeral).map Text.readInt? = (written f).map some := by
  rw [List.map_map]
  refine List.map_congr_left fun i hi => ?_
  exact (Text.readInt?_toString i).trans
    (if_pos (Nat.lt_of_le_of_lt (natAbs_le_of_mem_written hf i hi) hlt))

/-- Every clause ends with its own zero exactly if no clause is empty. -/
theorem delimited_written_iff : Delimited (written f) ↔ ∀ c ∈ f.clauses, c ≠ [] := by
  rw [written, delimited_ended_iff (zero_notMem_integers hf), List.forall_mem_map]
  exact forall₂_congr fun c _ => not_congr List.map_eq_nil_iff

/-- Every number in the text of the formula is at most the count of its variables. So the formula is written
just if this count is not too long. -/
theorem dump_eq_ok_iff (comments : List String) :
    dump f comments = .ok (write f comments) ↔ f.numVars < 10 ^ Text.digitLimit := by
  have hwritten (i : Int) : (Text.writeInt? i).isSome = true ↔ i.natAbs < 10 ^ Text.digitLimit := by
    rw [Text.writeInt?_eq]
    split <;> simp [*]
  have hwritable : isWritable f = true ↔ f.numVars < 10 ^ Text.digitLimit := by
    simp only [isWritable, List.all_cons, Bool.and_eq_true, List.all_eq_true, hwritten, Int.natAbs_natCast,
      List.forall_mem_map]
    refine and_iff_left_of_imp fun hlt l hl => ?_
    obtain ⟨c, hc, hl⟩ := List.mem_flatten.mp hl
    rw [Literal.natAbs_toInt]
    exact Nat.lt_of_le_of_lt (hf c hc l hl).2 hlt
  rw [dump, ← hwritable]
  split <;> simp [*]

/-- The runs of the written integers are the clauses. -/
theorem map_runs_written (hne : ∀ c ∈ f.clauses, c ≠ []) :
    (runs (written f)).map (·.map Literal.ofInt) = f.clauses := by
  have hclauses : ∀ is ∈ f.clauses.map integers, is ≠ [] := by
    rw [List.forall_mem_map]
    exact fun c hc => mt List.map_eq_nil_iff.mp (hne c hc)
  rw [written, runs_ended (zero_notMem_integers hf) hclauses, List.map_map]
  refine (List.map_congr_left fun c hc => ?_).trans (List.map_id _)
  show (c.map Literal.toInt).map Literal.ofInt = c
  rw [List.map_map]
  exact (List.map_congr_left fun l hl => Literal.ofInt_toInt (hf c hc l hl).1).trans (List.map_id _)

/-- What has to hold of a formula for its text to be in the grammar: no clause is empty, and the count
of variables is not too long to be read. -/
theorem inGrammar_write_iff (hcomments : ∀ s ∈ comments, OnOneLine s) {counts numbers : List Int} :
    InGrammar (write f comments) counts numbers ↔
      f.Legible ∧ counts = [(f.numVars : Int)] ∧ numbers = written f := by
  have hheaders : linesFrom 'p' (contentLines (write f comments)) = [Text.trim (headerLine f)] := by
    rw [contentLines_write hcomments, (arranged_written f comments).linesFrom_headers]
  have htokens := tokenStream_write (f := f) hcomments
  constructor
  · intro h
    obtain ⟨count, hcount, rfl⟩ :
        ∃ count, IsHeader (Text.trim (headerLine f)) count ∧ counts = [count] := by
      have hcounts := h.headers
      rw [hheaders] at hcounts
      obtain ⟨count, rest, hcount, hrest, rfl⟩ := List.forall₂_cons_left_iff.mp hcounts
      rw [List.forall₂_nil_left_iff.mp hrest]
      exact ⟨count, hcount, rfl⟩
    obtain ⟨hlt, rfl⟩ := isHeader_headerLine_iff.mp hcount
    -- The header bounds the variables, so each integer of a clause is read as it was written.
    have hnumbers : numbers = written f := by
      have hread := h.tokens
      rw [htokens, map_readInt?_written hf hlt] at hread
      exact (List.map_injective_iff.mpr (Option.some_injective Int) hread).symm
    subst hnumbers
    exact ⟨⟨(delimited_written_iff hf).mp h.delimited, hlt⟩, rfl, rfl⟩
  · rintro ⟨hlegible, rfl, rfl⟩
    refine ⟨?_, ?_, (delimited_written_iff hf).mpr hlegible.ne_nil, ended_eq_nil_or_getLast? _⟩
    · rw [hheaders]
      exact List.Forall₂.cons (isHeader_headerLine_iff.mpr ⟨hlegible.numVars_lt, rfl⟩) List.Forall₂.nil
    · rw [htokens, map_readInt?_written hf hlegible.numVars_lt]

/-- The text of a formula is read if the formula is legible, and then it is read as the formula, with the
comments trimmed. -/
theorem read_write_eq_ok_iff (hcomments : ∀ s ∈ comments, OnOneLine s) {d : Document} :
    read (write f comments) = .ok d ↔
      f.Legible ∧
        d = ⟨f.numVars, f.clauses, comments.map fun s => String.ofList (Text.trim s.toList)⟩ := by
  -- What the grammar gives back has the variables of the header, because no literal names another one.
  have hread (hlegible : f.Legible) :
      (⟨max (([(f.numVars : Int)] : List Int).getLastD 0).toNat (greatest (written f)),
          (runs (written f)).map (·.map Literal.ofInt), commentsOf (contentLines (write f comments))⟩ :
          Document)
        = ⟨f.numVars, f.clauses, comments.map fun s => String.ofList (Text.trim s.toList)⟩ := by
    have hgreatest := greatest_le_iff.mpr (natAbs_le_of_mem_written hf)
    rw [map_runs_written hf hlegible.ne_nil, commentsOf_write hcomments]
    congr 1
    exact max_eq_left hgreatest
  rw [read_iff]
  constructor
  · rintro ⟨counts, numbers, hgrammar, rfl⟩
    obtain ⟨hlegible, rfl, rfl⟩ := (inGrammar_write_iff hf hcomments).mp hgrammar
    exact ⟨hlegible, hread hlegible⟩
  · rintro ⟨hlegible, rfl⟩
    exact ⟨_, _, (inGrammar_write_iff hf hcomments).mpr ⟨hlegible, rfl, rfl⟩, (hread hlegible).symm⟩

/-- If it is not legible, its text is refused. -/
theorem read_write_eq_error_iff (hcomments : ∀ s ∈ comments, OnOneLine s) :
    (∃ e, read (write f comments) = .error e) ↔ ¬ f.Legible := by
  cases hread : read (write f comments) with
  | ok d => simp [((read_write_eq_ok_iff hf hcomments).mp hread).1]
  | error e =>
    refine iff_of_true ⟨e, rfl⟩ fun hlegible => ?_
    exact nomatch hread.symm.trans ((read_write_eq_ok_iff hf hcomments).mpr ⟨hlegible, rfl⟩)

end

/-! ### Formulas that calls lead to -/

/-- Whatever calls led to a formula that names allocated variables only, it is written if it is legible, its
text is read as the same variables and clauses, and the formula that is built from them has the same result.
The text is refused if it is not. -/
theorem read_write_after (calls : List Call) (hclosed : (Formula.empty.after calls).Closed) :
    ((Formula.empty.after calls).Legible →
      dump (Formula.empty.after calls) [] = .ok (write (Formula.empty.after calls) []) ∧
      ∃ d, read (write (Formula.empty.after calls) []) = .ok d ∧
        d.numVars = (Formula.empty.after calls).numVars ∧
        d.clauses = (Formula.empty.after calls).clauses ∧
        ∃ g, d.build = .ok g ∧ g.decide = (Formula.empty.after calls).decide) ∧
    (¬ (Formula.empty.after calls).Legible →
      ∃ e, read (write (Formula.empty.after calls) []) = .error e) := by
  have hcomments : ∀ s ∈ ([] : List String), OnOneLine s := by simp
  constructor
  · intro hlegible
    have hread := (read_write_eq_ok_iff hclosed hcomments).mpr ⟨hlegible, rfl⟩
    exact ⟨(dump_eq_ok_iff hclosed []).mpr hlegible.numVars_lt, _, hread, rfl, rfl, _, build_eq hread, rfl⟩
  · exact (read_write_eq_error_iff hclosed hcomments).mpr

/-- Three variables and two clauses. -/
def threeVariables : List Call :=
  [.allocateMany 3, .add (.arr [.int 1, .int (-2)]), .add (.arr [.int 3])]

/-- Three variables and two clauses, built call by call. -/
theorem read_write_after_three_variables :
    (Formula.empty.after threeVariables).Closed ∧ (Formula.empty.after threeVariables).Legible ∧
    dump (Formula.empty.after threeVariables) [] = .ok (write (Formula.empty.after threeVariables) []) ∧
    ∃ d, read (write (Formula.empty.after threeVariables) []) = .ok d ∧ d.numVars = 3 ∧
      d.clauses = [[.yes 1, .no 2], [.yes 3]] ∧
      ∃ g, d.build = .ok g ∧ g.decide = (Formula.empty.after threeVariables).decide := by
  have hformula : Formula.empty.after threeVariables = ⟨3, [[.yes 1, .no 2], [.yes 3]]⟩ := rfl
  have hclosed : (Formula.empty.after threeVariables).Closed := by
    rw [hformula, Formula.Closed]
    decide
  have hlegible : (Formula.empty.after threeVariables).Legible := by
    rw [hformula]
    have hcount : 3 < 10 ^ Text.digitLimit :=
      calc 3 < 10 ^ 1 := by decide
        _ ≤ 10 ^ Text.digitLimit := Nat.pow_le_pow_right (by decide) (by decide)
    exact ⟨by decide, hcount⟩
  exact ⟨hclosed, hlegible, (read_write_after threeVariables hclosed).1 hlegible⟩

/-- Allocating at the start makes a formula without clauses. -/
theorem after_allocateMany (n : Nat) : Formula.empty.after [.allocateMany n] = ⟨n, []⟩ := by
  simp [Formula.after, Formula.call, Formula.allocateMany, Formula.empty]

/-- A count of variables with more digits than are read and written is refused, even without clauses. -/
theorem read_write_of_le {n : Nat} (hn : 10 ^ Text.digitLimit ≤ n) :
    dump ⟨n, []⟩ [] = .error (.tooManyDigits none) ∧ ∃ e, read (write ⟨n, []⟩ []) = .error e := by
  have hclosed : Formula.Closed ⟨n, []⟩ := fun c hc => nomatch hc
  constructor
  · have hnot := mt (dump_eq_ok_iff hclosed []).mp (Nat.not_lt_of_le hn)
    rw [dump] at hnot ⊢
    split at hnot
    case isTrue => exact absurd rfl hnot
    case isFalse hwritable => exact if_neg hwritable
  · refine (read_write_eq_error_iff hclosed (by simp)).mpr fun h => ?_
    exact Nat.not_lt_of_le hn h.numVars_lt

/-- An empty clause is accepted and written as a zero alone, and such a zero is refused by the reader. A
count of variables with one digit more than are read is not even written. -/
theorem not_read_after_write :
    (Formula.empty.after [.add (.arr [])] = ⟨0, [[]]⟩ ∧ Formula.Closed ⟨0, [[]]⟩ ∧
      dump ⟨0, [[]]⟩ [] = .ok (write ⟨0, [[]]⟩ []) ∧ write ⟨0, [[]]⟩ [] = "p cnf 0 1\n0\n" ∧
      read (write ⟨0, [[]]⟩ []) = .error (.atLine 2 .emptyClause)) ∧
    (Formula.empty.after [.allocateMany (10 ^ Text.digitLimit : Nat)] = ⟨10 ^ Text.digitLimit, []⟩ ∧
      Formula.Closed ⟨10 ^ Text.digitLimit, []⟩ ∧
      dump ⟨10 ^ Text.digitLimit, []⟩ [] = .error (.tooManyDigits none) ∧
      ∃ e, read (write ⟨10 ^ Text.digitLimit, []⟩ []) = .error e) := by
  have hempty : Formula.Closed ⟨0, [[]]⟩ := by
    rw [Formula.Closed]
    decide
  have hwritten : dump ⟨0, [[]]⟩ [] = .ok (write ⟨0, [[]]⟩ []) :=
    (dump_eq_ok_iff hempty []).mpr (Nat.pow_pos (by decide))
  refine ⟨⟨rfl, hempty, hwritten, by decide, by decide⟩, ?_⟩
  exact ⟨after_allocateMany _, fun c hc => (nomatch hc), read_write_of_le (Nat.le_refl _)⟩

/-! ### Formulas that were read -/

section
variable {text : String} {d : Document}

/-- The counts of a header have no more digits than are read. -/
theorem natAbs_lt_of_mem_counts {lines : List (List Char)} {counts : List Int}
    (h : List.Forall₂ IsHeader lines counts) : ∀ count ∈ counts, count.natAbs < 10 ^ Text.digitLimit := by
  induction h with
  | nil => simp
  | cons hheader _ ih =>
    obtain ⟨_, _, _, -, hread⟩ := hheader
    exact List.forall_mem_cons.mpr ⟨Text.natAbs_lt_of_readInt? hread, ih⟩

/-- Nor have the integers of a text that is read. -/
theorem InGrammar.natAbs_lt {counts numbers : List Int} (h : InGrammar text counts numbers) :
    ∀ i ∈ numbers, i.natAbs < 10 ^ Text.digitLimit := by
  intro i hi
  have hmem : some i ∈ (tokenStream text).map Text.readInt? := h.tokens ▸ List.mem_map_of_mem hi
  obtain ⟨token, -, hread⟩ := List.mem_map.mp hmem
  exact Text.natAbs_lt_of_readInt? hread

/-- No integer of a text is too long to be written and read again, and no clause of it is empty. -/
theorem legible_formula (hread : read text = .ok d) : d.formula.Legible := by
  obtain ⟨counts, numbers, hgrammar, rfl⟩ := read_iff.mp hread
  refine ⟨?_, ?_⟩
  · show ∀ c ∈ (runs numbers).map (·.map Literal.ofInt), c ≠ []
    rw [List.forall_mem_map]
    intro run hrun
    have hne : run ≠ [] := by simpa using (List.mem_filter.mp hrun).2
    exact mt List.map_eq_nil_iff.mp hne
  · show max (counts.getLastD 0).toNat (greatest numbers) < 10 ^ Text.digitLimit
    have hcounts := natAbs_lt_of_mem_counts hgrammar.headers
    have hnumbers := hgrammar.natAbs_lt
    have hpos : 0 < 10 ^ Text.digitLimit := Nat.pow_pos (by decide)
    -- The power is never evaluated: all that counts is that both numbers are below it.
    generalize 10 ^ Text.digitLimit = bound at hcounts hnumbers hpos ⊢
    have hcount : (counts.getLastD 0).natAbs < bound := by
      rcases List.mem_cons.mp (List.getLastD_mem_cons (l := counts) (a := 0)) with hzero | hmem
      · rwa [hzero]
      · exact hcounts _ hmem
    have hgreatest : greatest numbers ≤ bound - 1 :=
      greatest_le_iff.mpr fun i hi => Nat.le_pred_of_lt (hnumbers i hi)
    rw [max_lt_iff]
    exact ⟨by omega, by omega⟩

/-- A comment of a text is on one line, and no blanks stand at its ends. -/
theorem trim_of_mem_comments (hread : read text = .ok d) :
    ∀ s ∈ d.comments, OnOneLine s ∧ String.ofList (Text.trim s.toList) = s := by
  obtain ⟨counts, numbers, -, rfl⟩ := read_iff.mp hread
  intro s hs
  obtain ⟨line, hline, rfl⟩ := List.mem_map.mp hs
  -- The line was trimmed, and its mark was taken off.
  have hmem : line ∈ contentLines text := List.mem_of_mem_filter hline
  obtain ⟨raw, hraw, rfl⟩ := List.mem_map.mp (List.takeWhile_sublist _ |>.subset hmem)
  rw [OnOneLine, String.toList_ofList, Text.trim_trim]
  refine ⟨fun c hc => ?_, rfl⟩
  have htail := Text.mem_of_mem_trim hc
  exact Text.isLineEnd_eq_false_of_mem_lines hraw (Text.mem_of_mem_trim (List.mem_of_mem_tail htail))

/-- Whatever text was read, the formula that is built from its document is written with its comments, and is
read as the same document. -/
theorem read_write_of_read (hread : read text = .ok d) :
    ∃ f, d.build = .ok f ∧ dump f d.comments = .ok (write f d.comments) ∧
      read (write f d.comments) = .ok d := by
  have hwritten := (dump_eq_ok_iff (closed_formula hread) d.comments).mpr (legible_formula hread).numVars_lt
  refine ⟨d.formula, build_eq hread, hwritten, ?_⟩
  have hcomments := trim_of_mem_comments hread
  rw [read_write_eq_ok_iff (closed_formula hread) fun s hs => (hcomments s hs).1]
  refine ⟨legible_formula hread, ?_⟩
  -- The comments were trimmed when they were read, and they are not trimmed any further.
  have hsame : (d.comments.map fun s => String.ofList (Text.trim s.toList)) = d.comments :=
    (List.map_congr_left fun s hs => (hcomments s hs).2).trans (List.map_id _)
  rw [hsame]
  rfl

end

/-- A comment with blanks, a header after the first clause has begun, and integers with signs and
leading zeros. -/
def untidy : String := "c  a comment \r\n+1 -02\np cnf 1 9\n3 0 -1 0"

/-- The text is read, and what is written for it is read as the same. -/
theorem read_write_of_read_untidy :
    read untidy = .ok ⟨3, [[.yes 1, .no 2, .yes 3], [.no 1]], ["a comment"]⟩ ∧
    ∃ f, Document.build ⟨3, [[.yes 1, .no 2, .yes 3], [.no 1]], ["a comment"]⟩ = .ok f ∧
      dump f ["a comment"] = .ok (write f ["a comment"]) ∧
      read (write f ["a comment"]) = .ok ⟨3, [[.yes 1, .no 2, .yes 3], [.no 1]], ["a comment"]⟩ := by
  have hread : read untidy = .ok ⟨3, [[.yes 1, .no 2, .yes 3], [.no 1]], ["a comment"]⟩ := by
    cbv
  exact ⟨hread, read_write_of_read hread⟩

end Dimacs
end VennDiagram
