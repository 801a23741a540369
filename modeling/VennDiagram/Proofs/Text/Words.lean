import Mathlib.Data.List.DropRight
import VennDiagram.Text.Blank
import VennDiagram.Text.Lines

/-!
# `VennDiagram.Proofs.Text.Words`: words and lines of a text that was put together

A text that was put together from words with blanks between them, or from lines with line feeds after
them, is taken apart into the same words and lines (`words_intercalate`, `lines_flatMap`). Both follow
from one equation for a single separator, `words_append_blank` and `lines_append`.

Blanks at the ends of a text do not matter to its words (`words_trim`), nor to what is left when blanks
are trimmed (`trim_cons_of_blank`, `trim_trimEnd`). A character that is not blank keeps its place at
the front (`trim_cons`).
-/

set_option autoImplicit false

namespace VennDiagram.Text

variable {s rest : List Char} {c : Char}

/-! ### Trimming -/

/-- The text without the blanks at its end. -/
def trimEnd (s : List Char) : List Char := s.rdropWhile isBlank

/-- Blanks are dropped in front first, and then at the end. -/
theorem trim_eq (s : List Char) : trim s = trimEnd (s.dropWhile isBlank) := rfl

/-- The first character goes only if it is a blank and nothing but blanks follows. -/
theorem trimEnd_cons (c : Char) (s : List Char) :
    trimEnd (c :: s) = if trimEnd s = [] ∧ isBlank c = true then [] else c :: trimEnd s := by
  show ((c :: s).reverse.dropWhile isBlank).reverse
    = if (s.reverse.dropWhile isBlank).reverse = [] ∧ isBlank c = true then []
      else c :: (s.reverse.dropWhile isBlank).reverse
  rw [List.reverse_cons, List.dropWhile_append]
  cases s.reverse.dropWhile isBlank with
  | nil => cases hc : isBlank c <;> simp [hc]
  | cons b bs => simp

/-- A character that is not blank ends the blanks in front. -/
theorem trim_cons (hc : isBlank c = false) (s : List Char) : trim (c :: s) = c :: trimEnd s := by
  rw [trim_eq, List.dropWhile_cons_of_neg (by simp [hc]), trimEnd_cons, if_neg (by simp [hc])]

/-- A blank in front is dropped. -/
theorem trim_cons_of_blank (hc : isBlank c = true) (s : List Char) : trim (c :: s) = trim s := by
  rw [trim_eq, List.dropWhile_cons_of_pos hc, trim_eq]

/-- Blanks at the end may be trimmed before those at the front. -/
theorem trim_trimEnd (s : List Char) : trim (trimEnd s) = trim s := by
  induction s with
  | nil => rfl
  | cons c s ih =>
    rw [trimEnd_cons]
    cases hc : isBlank c with
    | false =>
      rw [if_neg (by simp), trim_cons hc, trim_cons hc]
      exact congrArg (c :: ·) (List.rdropWhile_idempotent isBlank s)
    | true =>
      rw [trim_cons_of_blank hc, ← ih]
      split
      case isTrue h => rw [h.1]
      case isFalse => rw [trim_cons_of_blank hc]

/-- What is left has no blanks at its ends. -/
theorem trim_trim (s : List Char) : trim (trim s) = trim s := by
  rw [trim_eq s, trim_trimEnd, trim_eq, List.dropWhile_idempotent]

/-- Dropping blanks adds nothing. -/
theorem mem_of_mem_trim (h : c ∈ trim s) : c ∈ s :=
  (List.dropWhile_sublist isBlank).subset ((List.rdropWhile_prefix isBlank _).subset h)

/-! ### Words -/

/-- One or more characters, none of them blank. -/
structure IsWord (w : List Char) : Prop where
  ne_nil : w ≠ []
  not_blank : ∀ c ∈ w, isBlank c = false

/-- There are no words in an empty text. -/
theorem words_nil : words [] = [] := rfl

/-- A blank separates words. -/
theorem words_append_blank (hc : isBlank c = true) (s rest : List Char) :
    words (s ++ c :: rest) = words s ++ words rest := by
  rw [words, List.splitOnP_append_cons s rest hc, List.filter_append]
  rfl

/-- A word is its only word. -/
theorem IsWord.words_eq (hs : IsWord s) : words s = [s] := by
  rw [words, List.splitOnP_eq_singleton hs.not_blank]
  simp [hs.ne_nil]

/-- Words with spaces between them are read as these words. -/
theorem words_intercalate {ws : List (List Char)} (hws : ∀ w ∈ ws, IsWord w) :
    words ([' '].intercalate ws) = ws := by
  induction ws with
  | nil => rfl
  | cons w ws ih =>
    obtain ⟨hw, hrest⟩ := List.forall_mem_cons.mp hws
    cases ws with
    | nil => rw [List.intercalate_singleton, hw.words_eq]
    | cons w' ws =>
      rw [List.intercalate_cons_cons, List.append_assoc, List.singleton_append,
        words_append_blank (by decide), hw.words_eq, ih hrest]
      rfl

/-- Line ends are blank. -/
theorem isLineEnd_of_isBlank_eq_false (hc : isBlank c = false) : isLineEnd c = false := by
  simp [isBlank] at hc
  simp [isLineEnd]
  omega

/-- Words with spaces between them are on one line. -/
theorem isLineEnd_of_mem_intercalate {ws : List (List Char)} (hws : ∀ w ∈ ws, IsWord w) :
    ∀ c ∈ [' '].intercalate ws, isLineEnd c = false := by
  induction ws with
  | nil => intro c hc; cases hc
  | cons w ws ih =>
    obtain ⟨hw, hrest⟩ := List.forall_mem_cons.mp hws
    have hline : ∀ c ∈ w, isLineEnd c = false := fun c hc =>
      isLineEnd_of_isBlank_eq_false (hw.not_blank c hc)
    -- No blank follows the last word.
    cases ws with
    | nil => rwa [List.intercalate_singleton]
    | cons w' ws =>
      rw [List.intercalate_cons_cons, List.append_assoc]
      intro c hc
      rcases List.mem_append.mp hc with hc | hc
      · exact hline c hc
      rcases List.mem_append.mp hc with hc | hc
      · rw [List.mem_singleton.mp hc]
        decide
      · exact ih hrest c hc

/-- Blanks at the ends do not count. -/
theorem words_trim (s : List Char) : words (trim s) = words s := by
  have hstart : ∀ s, words (s.dropWhile isBlank) = words s := by
    intro s
    induction s with
    | nil => rfl
    | cons c s ih =>
      cases hc : isBlank c with
      | false => rw [List.dropWhile_cons_of_neg (by simp [hc])]
      | true =>
        rw [List.dropWhile_cons_of_pos hc, ih]
        exact (words_append_blank hc [] s).symm
  -- Blanks go from the end one at a time, so this induction is from the end.
  have hend : ∀ s, words (trimEnd s) = words s := by
    intro s
    induction s using List.reverseRecOn with
    | nil => rfl
    | append_singleton s c ih =>
      cases hc : isBlank c with
      | false => rw [trimEnd, List.rdropWhile_concat_neg _ _ _ (by simp [hc])]
      | true =>
        rw [trimEnd, List.rdropWhile_concat_pos _ _ _ hc, words_append_blank hc, words_nil,
          List.append_nil]
        exact ih
  rw [trim_eq, hend, hstart]

/-- A text without words is blank. -/
theorem words_eq_nil_iff {s : List Char} : words s = [] ↔ trim s = [] := by
  refine ⟨fun h => ?_, fun h => by rw [← words_trim, h, words_nil]⟩
  induction s with
  | nil => rfl
  | cons c s ih =>
    cases hc : isBlank c with
    | true =>
      rw [trim_cons_of_blank hc]
      exact ih ((words_append_blank hc [] s).symm.trans h)
    | false =>
      -- The first piece begins with the character, so it is a word.
      obtain ⟨piece, pieces, hsplit⟩ := List.exists_cons_of_ne_nil (List.splitOnP_ne_nil isBlank s)
      rw [words, List.splitOnP_cons_eq_if_modifyHead, if_neg (by simp [hc]), hsplit] at h
      exact absurd h (by simp)

/-! ### Lines -/

/-- What comes before a line feed is unified on its own. A return at its end makes one line end together
with the line feed. -/
theorem exists_unifyLineEnds_append (s : List Char) :
    ∃ front, ∀ rest, unifyLineEnds (s ++ '\n' :: rest) = front ++ '\n' :: unifyLineEnds rest := by
  induction s using unifyLineEnds.induct with
  | case1 s ih =>
    obtain ⟨front, ih⟩ := ih
    exact ⟨'\n' :: front, fun rest => congrArg ('\n' :: ·) (ih rest)⟩
  | case2 s hs ih =>
    -- A return with nothing behind it is unified with the line feed that follows.
    cases s with
    | nil => exact ⟨[], fun _ => rfl⟩
    | cons c s =>
      obtain ⟨front, ih⟩ := ih
      refine ⟨'\n' :: front, fun rest => ?_⟩
      rw [List.cons_append, unifyLineEnds, ih, List.cons_append]
      intro _ h
      exact hs s (congrArg (· :: s) (List.cons.inj h).1)
  | case3 c s _ hc ih =>
    obtain ⟨front, ih⟩ := ih
    refine ⟨c :: front, fun rest => ?_⟩
    rw [List.cons_append, unifyLineEnds, ih, List.cons_append]
    · exact fun _ h => absurd h hc
    · exact hc
  | case4 => exact ⟨[], fun _ => by rw [List.nil_append, unifyLineEnds] <;> simp⟩

/-- The lines of a text that a line feed follows are those of the text, whatever comes after them. -/
theorem lines_eq_of_unify {front : List Char}
    (hfront : ∀ rest, unifyLineEnds (s ++ '\n' :: rest) = front ++ '\n' :: unifyLineEnds rest)
    (rest : List Char) : lines (s ++ '\n' :: rest) = front.splitOnP isLineEnd ++ lines rest := by
  rw [lines, hfront, List.splitOnP_append_cons _ _ (by decide), lines]
  -- The last piece is that of the rest, and the lines before the line feed stay in front of it.
  have hne := List.splitOnP_ne_nil isLineEnd (unifyLineEnds rest)
  rw [List.getLast?_append_of_ne_nil _ hne, List.dropLast_append_of_ne_nil hne]
  split <;> rfl

/-- A line feed ends a line, and what comes before it is cut into lines on its own. -/
theorem lines_append (s rest : List Char) :
    lines (s ++ '\n' :: rest) = lines (s ++ ['\n']) ++ lines rest := by
  obtain ⟨front, hfront⟩ := exists_unifyLineEnds_append s
  have hnil : lines [] = [] := rfl
  rw [lines_eq_of_unify hfront, lines_eq_of_unify hfront, hnil, List.append_nil]

/-- A text that ends with a line feed has a line. -/
theorem lines_newline_ne_nil (s : List Char) : lines (s ++ ['\n']) ≠ [] := by
  obtain ⟨front, hfront⟩ := exists_unifyLineEnds_append s
  rw [lines_eq_of_unify hfront]
  exact List.append_ne_nil_of_left_ne_nil (List.splitOnP_ne_nil isLineEnd front) _

/-- A character that ends no line belongs to the line that it stands before. -/
theorem lines_cons (hc : isLineEnd c = false) (s : List Char) :
    lines (c :: s ++ ['\n']) = (lines (s ++ ['\n'])).modifyHead (c :: ·) := by
  -- A carriage return alone would join with a line feed after it.
  have hreturn : c ≠ '\r' := by
    rintro rfl
    exact absurd hc (by decide)
  obtain ⟨front, hfront⟩ := exists_unifyLineEnds_append s
  have hcons (rest : List Char) :
      unifyLineEnds (c :: s ++ '\n' :: rest) = (c :: front) ++ '\n' :: unifyLineEnds rest := by
    rw [List.cons_append, unifyLineEnds, hfront, List.cons_append] <;> simp [hreturn]
  rw [lines_eq_of_unify hcons, lines_eq_of_unify hfront, List.splitOnP_cons_eq_if_modifyHead,
    if_neg (by simp [hc])]
  obtain ⟨line, more, hlines⟩ := List.exists_cons_of_ne_nil (List.splitOnP_ne_nil isLineEnd front)
  rw [hlines]
  rfl

/-- Without line ends before the line feed there is one line. -/
theorem lines_newline (hs : ∀ c ∈ s, isLineEnd c = false) : lines (s ++ ['\n']) = [s] := by
  induction s with
  | nil => rfl
  | cons c s ih =>
    obtain ⟨hc, hs⟩ := List.forall_mem_cons.mp hs
    rw [lines_cons hc, ih hs, List.modifyHead_cons]

/-- Texts with a line feed after each are cut into lines one by one. -/
theorem lines_flatMap_newline (ss : List (List Char)) :
    lines (ss.flatMap (· ++ ['\n'])) = ss.flatMap fun s => lines (s ++ ['\n']) := by
  induction ss with
  | nil => rfl
  | cons s ss ih =>
    rw [List.flatMap_cons, List.append_assoc, List.singleton_append, lines_append, ih, List.flatMap_cons]

/-- Lines with a line feed after each are read as these lines. -/
theorem lines_flatMap (ls : List (List Char)) (hls : ∀ l ∈ ls, ∀ c ∈ l, isLineEnd c = false) :
    lines (ls.flatMap (· ++ ['\n'])) = ls := by
  rw [lines_flatMap_newline]
  exact (List.flatMap_congr fun l hl => lines_newline (hls l hl)).trans (List.flatMap_singleton' ls)

/-- A piece of a split has no element that was split at. -/
theorem eq_false_of_mem_splitOnP {p : Char → Bool} (h : s ∈ rest.splitOnP p) (hc : c ∈ s) :
    p c = false := by
  induction rest generalizing s with
  | nil =>
    rw [List.splitOnP_nil, List.mem_singleton] at h
    subst h
    cases hc
  | cons x rest ih =>
    -- A character either ends the piece before it or is added to the first piece of the rest.
    obtain ⟨piece, pieces, hsplit⟩ := List.exists_cons_of_ne_nil (List.splitOnP_ne_nil p rest)
    rw [List.splitOnP_cons_eq_if_modifyHead, hsplit] at h
    rw [hsplit] at ih
    cases hx : p x with
    | true =>
      rw [if_pos hx] at h
      rcases List.mem_cons.mp h with rfl | h
      · cases hc
      · exact ih h hc
    | false =>
      rw [if_neg (by simp [hx]), List.modifyHead_cons] at h
      rcases List.mem_cons.mp h with rfl | h
      · rcases List.mem_cons.mp hc with rfl | hc
        · exact hx
        · exact ih List.mem_cons_self hc
      · exact ih (List.mem_cons_of_mem _ h) hc

/-- A line has no line ends. -/
theorem isLineEnd_eq_false_of_mem_lines (h : s ∈ lines rest) (hc : c ∈ s) : isLineEnd c = false := by
  have hmem : s ∈ (unifyLineEnds rest).splitOnP isLineEnd := by
    rw [lines] at h
    split at h
    · exact (List.dropLast_sublist _).subset h
    · exact h
  exact eq_false_of_mem_splitOnP hmem hc

end VennDiagram.Text
