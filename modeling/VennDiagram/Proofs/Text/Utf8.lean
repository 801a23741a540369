import Mathlib.Data.List.TakeWhile
import VennDiagram.Files.Basic

/-!
# `VennDiagram.Proofs.Text.Utf8`: decoding what was encoded

A text is encoded character by character, and its bytes decode to the same characters
(`decode_toUTF8`). The bytes of a character are a whole sequence in the sense of the decoder
(`IsSequence`), whose code point is the character's. The four lengths of a sequence are four ranges of
code points, and the bounds on a second byte hold because code points lie within their range.

Reading a text file also turns every line end into a line feed. Doing so twice is doing it once, so the
lines of a text are the lines of what is read from its file.
-/

set_option autoImplicit false

namespace VennDiagram.Text

namespace Utf8

variable {first : UInt8} {tail : List UInt8}

/-- The bytes are one sequence: as many as the first byte announces, with a second one that is allowed
after it, and others that continue it. -/
structure IsSequence (first : UInt8) (tail : List UInt8) : Prop where
  length_eq : length? first = some (tail.length + 1)
  second : ∀ b ∈ tail.head?, isSecond first b = true
  others : ∀ b ∈ tail.tail, isContinuation b = true

/-- All bytes of a sequence are found to continue it, whatever follows. -/
theorem continued_append (h : IsSequence first tail) (rest : List UInt8) :
    continued first tail.length (tail ++ rest) = tail.length := by
  cases tail with
  | nil => cases rest <;> simp [continued]
  | cons b more =>
    have hsecond : isSecond first b = true := h.second b rfl
    have hothers : more.takeWhile isContinuation = more := by
      rw [List.takeWhile_eq_self_iff]
      exact h.others
    simp only [continued, List.cons_append, List.length_cons, Nat.add_sub_cancel, List.take_left,
      hothers, hsecond, Nat.zero_lt_succ, decide_true, Bool.and_self, if_true]
    omega

/-- A whole sequence decodes to its code point. -/
theorem decodeFrom_append (h : IsSequence first tail) (offset : Nat) (done : List Char)
    (rest : List UInt8) :
    decodeFrom offset done (first :: tail ++ rest)
      = decodeFrom (offset + (tail.length + 1)) (Char.ofNat (codePoint first tail) :: done) rest := by
  rw [List.cons_append, decodeFrom, h.length_eq]
  simp only [Nat.add_sub_cancel, continued_append h, Nat.lt_irrefl, if_false, List.take_left,
    List.drop_left]

/-! ### The bytes of a character -/

/-- The lengths of sequences, by the value of the first byte. -/
theorem length?_ofNat {n : Nat} (hn : n < 256) :
    length? (UInt8.ofNat n)
      = if n ≤ 0x7F then some 1
        else if n < 0xC2 then none
        else if n ≤ 0xDF then some 2
        else if n ≤ 0xEF then some 3
        else if n ≤ 0xF4 then some 4
        else none := by
  simp only [length?, UInt8.le_iff_toNat_le, UInt8.lt_iff_toNat_lt, UInt8.toNat_ofNat_of_lt' hn]
  rfl

/-- A byte in the range of continuations is one. -/
theorem isContinuation_ofNat {n : Nat} (hlow : 0x80 ≤ n) (hhigh : n ≤ 0xBF) :
    isContinuation (UInt8.ofNat n) = true := by
  have hn : (UInt8.ofNat n).toNat = n := UInt8.toNat_ofNat_of_lt' (show n < 256 by omega)
  simp [isContinuation, UInt8.le_iff_toNat_le, hn, hlow, hhigh]

/-- A byte that continues sequences may be second, but for the bounds after four first bytes. -/
theorem isSecond_ofNat {f n : Nat} (hf : f < 256) (hlow : 0x80 ≤ n) (hhigh : n ≤ 0xBF)
    (hE0 : f = 0xE0 → 0xA0 ≤ n) (hF0 : f = 0xF0 → 0x90 ≤ n) (hED : f = 0xED → n ≤ 0x9F)
    (hF4 : f = 0xF4 → n ≤ 0x8F) : isSecond (UInt8.ofNat f) (UInt8.ofNat n) = true := by
  have hn : (UInt8.ofNat n).toNat = n := UInt8.toNat_ofNat_of_lt' (show n < 256 by omega)
  have heq (byte : Nat) (hbyte : byte < 256) : UInt8.ofNat f = UInt8.ofNat byte ↔ f = byte := by
    rw [← UInt8.toNat_inj, UInt8.toNat_ofNat_of_lt' hf, UInt8.toNat_ofNat_of_lt' hbyte]
  -- Four first bytes narrow the range of the second one.
  have h1 := heq 0xE0 (by decide)
  have h2 := heq 0xF0 (by decide)
  have h3 := heq 0xED (by decide)
  have h4 := heq 0xF4 (by decide)
  simp only [UInt8.reduceOfNat] at h1 h2 h3 h4
  simp only [isSecond, h1, h2, h3, h4, Bool.and_eq_true, decide_eq_true_eq, UInt8.le_iff_toNat_le, hn]
  constructor
  · split
    · exact hE0 ‹_›
    split
    · exact hF0 ‹_›
    · exact hlow
  · split
    · exact hED ‹_›
    split
    · exact hF4 ‹_›
    · exact hhigh

/-- The bytes of a character are a sequence with its code point. -/
theorem exists_isSequence (c : Char) :
    ∃ first tail, String.utf8EncodeChar c = first :: tail ∧ IsSequence first tail ∧
      codePoint first tail = c.toNat := by
  -- A character is a number outside the surrogates, and all that is asked of its bytes is arithmetic on
  -- it. There is one case for each number of bytes.
  have hvalid : c.toNat < 0xD800 ∨ 0xDFFF < c.toNat ∧ c.toNat < 0x110000 := c.valid
  have hval : c.val.toNat = c.toNat := rfl
  simp only [String.utf8EncodeChar, hval]
  clear hval
  generalize c.toNat = n at hvalid ⊢
  split
  case isTrue hone =>
    refine ⟨_, _, rfl, ⟨?_, by simp, by simp⟩, ?_⟩
    · rw [length?_ofNat (by omega), if_pos hone]
      rfl
    · simp [codePoint]
      omega
  split
  case isTrue htwo =>
    refine ⟨_, _, rfl, ⟨?_, ?_, by simp⟩, ?_⟩
    · rw [length?_ofNat (by omega), if_neg (by omega), if_neg (by omega), if_pos (by omega)]
      rfl
    · rintro _ ⟨rfl⟩
      apply isSecond_ofNat <;> omega
    · simp [codePoint]
      omega
  split
  case isTrue hthree =>
    refine ⟨_, _, rfl, ⟨?_, ?_, ?_⟩, ?_⟩
    · rw [length?_ofNat (by omega), if_neg (by omega), if_neg (by omega), if_neg (by omega),
        if_pos (by omega)]
      rfl
    · rintro _ ⟨rfl⟩
      apply isSecond_ofNat <;> omega
    · simp only [List.tail_cons, List.forall_mem_singleton]
      apply isContinuation_ofNat <;> omega
    · simp [codePoint]
      omega
  case isFalse hfour =>
    refine ⟨_, _, rfl, ⟨?_, ?_, ?_⟩, ?_⟩
    · rw [length?_ofNat (by omega), if_neg (by omega), if_neg (by omega), if_neg (by omega),
        if_neg (by omega), if_pos (by omega)]
      rfl
    · rintro _ ⟨rfl⟩
      apply isSecond_ofNat <;> omega
    · refine List.forall_mem_cons.mpr ⟨?_, List.forall_mem_singleton.mpr ?_⟩ <;>
        apply isContinuation_ofNat <;> omega
    · simp [codePoint]
      omega

/-- Characters decode to themselves. -/
theorem decodeFrom_flatMap (s : List Char) (offset : Nat) (done : List Char) :
    decodeFrom offset done (s.flatMap String.utf8EncodeChar) = .ok (done.reverse ++ s) := by
  induction s generalizing offset done with
  | nil => rw [List.flatMap_nil, decodeFrom, List.append_nil]
  | cons c s ih =>
    obtain ⟨first, tail, hbytes, hsequence, hcode⟩ := exists_isSequence c
    rw [List.flatMap_cons, hbytes, decodeFrom_append hsequence, ih, hcode, Char.ofNat_toNat,
      List.reverse_cons, List.append_assoc, List.singleton_append]

/-- The loop that lists the bytes of an array has those before a position in reverse. -/
theorem toList_loop_eq (bytes : ByteArray) (i : Nat) (done : List UInt8) :
    ByteArray.toList.loop bytes i done = done.reverse ++ bytes.data.toList.drop i := by
  fun_induction ByteArray.toList.loop bytes i done with
  | case1 i done hi ih =>
    have hget : bytes.get! i = bytes.data.toList[i] := getElem!_pos bytes.data i hi
    rw [ih, hget, List.reverse_cons, List.append_assoc, List.singleton_append,
      List.getElem_cons_drop]
  | case2 i done hi =>
    rw [List.drop_eq_nil_of_le (Nat.le_of_not_lt hi), List.append_nil]

/-- The bytes of a text decode to the text. -/
theorem decode_toUTF8 (s : String) : decode s.toUTF8.toList = .ok s.toList := by
  have hbytes : s.toUTF8.toList = s.toList.flatMap String.utf8EncodeChar := by
    rw [String.toUTF8, ← String.utf8Encode_toList, List.utf8Encode, ByteArray.toList, toList_loop_eq,
      List.toList_data_toByteArray]
    rfl
  rw [decode, hbytes, decodeFrom_flatMap, List.reverse_nil, List.nil_append]

end Utf8

/-! ### Line ends -/

/-- Line ends that are line feeds stay. -/
theorem unifyLineEnds_idem (s : List Char) : unifyLineEnds (unifyLineEnds s) = unifyLineEnds s := by
  fun_induction unifyLineEnds s with
  | case1 rest ih => rw [unifyLineEnds, ih] <;> simp
  | case2 rest _ ih => rw [unifyLineEnds, ih] <;> simp
  | case3 c rest _ hc ih => rw [unifyLineEnds, ih] <;> simp_all
  | case4 => rfl

/-- Unifying line ends does not change the lines. -/
theorem lines_unifyLineEnds (s : List Char) : lines (unifyLineEnds s) = lines s := by
  rw [lines, lines, unifyLineEnds_idem]

end VennDiagram.Text

namespace VennDiagram.Files

open Text in
/-- A file with the bytes of a text is read as the text with unified line ends. -/
theorem textOf_toUTF8 (s : String) : textOf s.toUTF8.toList = .ok (unifyLineEnds s.toList) := by
  rw [textOf, Utf8.decode_toUTF8]
  rfl

end VennDiagram.Files
