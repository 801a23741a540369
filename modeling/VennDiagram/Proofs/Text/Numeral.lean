import Mathlib.Algebra.Group.Nat.Defs
import Mathlib.Data.List.Induction
import Mathlib.Data.List.TakeWhile
import VennDiagram.Text.Numeral

/-!
# `VennDiagram.Proofs.Text.Numeral`: reading integers that were written

An integer is written with ASCII digits, after a minus if it is negative, and reading gives it back as
long as it has no more digits than are read (`readInt?_toString`). Conversely nothing that is read, in
any script, needs more digits (`natAbs_lt_of_readInt?`), and no more digits than are read are written
(`writeInt?_eq`). So what was read once can be written and read again.

A written integer is a word: it has no blanks (`isBlank_of_mem_toString`), and it begins with neither a
letter nor a percent sign (`exists_toList_toString`).
-/

set_option autoImplicit false

namespace VennDiagram.Text

variable {c : Char} {s : List Char}

/-! ### Digits -/

/-- A digit has its value. -/
theorem digit?_of_isDigit (hc : c.isDigit = true) : digit? c = some (c.toNat - '0'.toNat) := by
  obtain ⟨hlow, hhigh⟩ : 0x30 ≤ c.toNat ∧ c.toNat ≤ 0x39 := Char.isDigit_iff_toNat.mp hc
  rw [digit?]
  simp only [hlow, hhigh, decide_true, Bool.and_self, if_true]
  rw [if_pos (by omega)]
  rfl

/-- The value of a digit is below ten. -/
theorem digit?_lt {d : Nat} (h : digit? c = some d) : d < 10 := by
  rw [digit?] at h
  split at h
  case isTrue =>
    split at h
    case isTrue hrange =>
      obtain ⟨hlow, hhigh⟩ : 0x30 ≤ c.toNat ∧ c.toNat ≤ 0x39 := by simpa using hrange
      obtain rfl := Option.some.inj h
      omega
    case isFalse => exact nomatch h
  case isFalse =>
    obtain ⟨start, hstart, rfl⟩ := Option.map_eq_some_iff.mp h
    obtain ⟨hlow, hhigh⟩ : start ≤ c.toNat ∧ c.toNat < start + 10 := by
      simpa using List.find?_some hstart
    omega

/-- ASCII digits without underscores are read one by one. -/
theorem groupedDigits?_of_isDigit (hne : s ≠ []) (hs : ∀ c ∈ s, c.isDigit = true) :
    groupedDigits? s = some (s.map fun c => c.toNat - '0'.toNat) := by
  fun_induction groupedDigits? s with
  | case1 => exact absurd rfl hne
  | case2 c => simp [digit?_of_isDigit (hs c List.mem_cons_self)]
  | case3 c rest ih => exact absurd (hs '_' (by simp)) (by decide)
  | case4 c rest hrest _ ih =>
    obtain ⟨hc, hdigits⟩ := List.forall_mem_cons.mp hs
    rw [digit?_of_isDigit hc, ih hrest hdigits]
    rfl

/-- No digit that is read is ten or more. -/
theorem lt_of_mem_groupedDigits? {ds : List Nat} (h : groupedDigits? s = some ds) :
    ∀ d ∈ ds, d < 10 := by
  fun_induction groupedDigits? s generalizing ds with
  | case1 => exact nomatch h
  | case2 c =>
    obtain ⟨d, hd, rfl⟩ := Option.map_eq_some_iff.mp h
    exact List.forall_mem_singleton.mpr (digit?_lt hd)
  | case3 c rest ih =>
    obtain ⟨d, hd, h⟩ := Option.bind_eq_some_iff.mp h
    obtain ⟨more, hmore, h⟩ := Option.bind_eq_some_iff.mp h
    obtain rfl := Option.some.inj h
    exact List.forall_mem_cons.mpr ⟨digit?_lt hd, ih hmore⟩
  | case4 c rest _ _ ih =>
    obtain ⟨d, hd, h⟩ := Option.bind_eq_some_iff.mp h
    obtain ⟨more, hmore, h⟩ := Option.bind_eq_some_iff.mp h
    obtain rfl := Option.some.inj h
    exact List.forall_mem_cons.mpr ⟨digit?_lt hd, ih hmore⟩

/-- A digit at the end is added to ten times the rest. -/
theorem value_append_singleton (ds : List Nat) (d : Nat) : value (ds ++ [d]) = 10 * value ds + d := by
  rw [value, List.foldl_append]
  rfl

/-- A string of digits stays below the power of ten with as many zeros. -/
theorem value_lt {ds : List Nat} (hds : ∀ d ∈ ds, d < 10) : value ds < 10 ^ ds.length := by
  induction ds using List.reverseRecOn with
  | nil => exact Nat.one_pos
  | append_singleton ds d ih =>
    have hd : d < 10 := hds d (by simp)
    have hlt := ih fun x hx => hds x (List.mem_append_left _ hx)
    rw [value_append_singleton, List.length_append, List.length_singleton, Nat.pow_succ]
    omega

/-! ### Written numbers -/

/-- The digits a number is written with have its value. -/
theorem value_toDigits (n : Nat) :
    value ((Nat.toDigits 10 n).map fun c => c.toNat - '0'.toNat) = n := by
  rw [value, List.foldl_map, ← Nat.ofDigitChars_eq_foldl, Nat.ofDigitChars_ten_toDigits]

/-- A number is written in digits. -/
theorem isDigit_of_mem_toDigits {n : Nat} (hc : c ∈ Nat.toDigits 10 n) : c.isDigit = true :=
  Nat.isDigit_of_mem_toDigits (by decide) (by decide) hc

/-- The digits of a number are read one by one. -/
theorem groupedDigits?_toDigits (n : Nat) :
    groupedDigits? (Nat.toDigits 10 n) = some ((Nat.toDigits 10 n).map fun c => c.toNat - '0'.toNat) :=
  groupedDigits?_of_isDigit Nat.toDigits_ne_nil fun _ => isDigit_of_mem_toDigits

/-- An integer is written as its digits, after a minus if it is negative. -/
theorem toList_toString (i : Int) :
    (toString i).toList = (if 0 ≤ i then [] else ['-']) ++ Nat.toDigits 10 i.natAbs := by
  rw [Int.toString_eq_repr, Int.repr_eq_if]
  split
  case isTrue h =>
    rw [Nat.toList_repr, List.nil_append, show i.toNat = i.natAbs by omega]
  case isFalse h =>
    rw [String.toList_append, Nat.toList_repr, show (-i).toNat = i.natAbs by omega]
    rfl

/-- The characters of a written integer are digits and minuses. -/
theorem mem_toString {i : Int} (hc : c ∈ (toString i).toList) : c = '-' ∨ c.isDigit = true := by
  rw [toList_toString] at hc
  rcases List.mem_append.mp hc with hc | hc
  · split at hc
    · cases hc
    · exact Or.inl (List.mem_singleton.mp hc)
  · exact Or.inr (isDigit_of_mem_toDigits hc)

/-- No digit is blank. -/
theorem isBlank_of_isDigit (hc : c.isDigit = true) : isBlank c = false := by
  have hrange : 0x30 ≤ c.toNat ∧ c.toNat ≤ 0x39 := Char.isDigit_iff_toNat.mp hc
  simp [isBlank]
  omega

/-- Nothing in a written integer is. -/
theorem isBlank_of_mem_toString {i : Int} (hc : c ∈ (toString i).toList) : isBlank c = false := by
  rcases mem_toString hc with rfl | hdigit
  · decide
  · exact isBlank_of_isDigit hdigit

/-- Nothing stands around a written integer. -/
theorem trimMargins_of_forall (hs : ∀ c ∈ s, isBlank c = false) : trimMargins s = s := by
  have hdrop : ∀ s : List Char, (∀ c ∈ s, isBlank c = false) → s.dropWhile isMargin = s := by
    intro s hs
    refine List.dropWhile_eq_self_iff.mpr fun hlength => ?_
    simp [isMargin, hs _ (List.getElem_mem hlength)]
  rw [trimMargins, hdrop s hs, hdrop s.reverse fun c hc => hs c (List.mem_reverse.mp hc),
    List.reverse_reverse]

/-- The sign of a written integer is taken off. -/
theorem takeSign_toString (i : Int) :
    takeSign (toString i).toList = (decide (i < 0), Nat.toDigits 10 i.natAbs) := by
  rw [toList_toString]
  split
  case isFalse h =>
    show (true, Nat.toDigits 10 i.natAbs) = _
    rw [decide_eq_true (by omega)]
  case isTrue h =>
    rw [decide_eq_false (by omega), List.nil_append]
    -- The first digit is no sign.
    have hdigits : ∀ c ∈ Nat.toDigits 10 i.natAbs, c.isDigit = true := fun _ =>
      isDigit_of_mem_toDigits
    unfold takeSign
    split
    case h_1 hlist => exact absurd (hdigits '-' (by simp [hlist])) (by decide)
    case h_2 hlist => exact absurd (hdigits '+' (by simp [hlist])) (by decide)
    case h_3 => rfl

/-- A number has too many digits if it is at least the power of ten with as many zeros as digits are
allowed. -/
theorem lt_length_toDigits_iff (n : Nat) :
    digitLimit < (Nat.toDigits 10 n).length ↔ ¬ n < 10 ^ digitLimit := by
  rw [← Nat.length_toDigits_le_iff (by decide) (show 0 < digitLimit by decide), Nat.not_le]

/-- An integer is written if it is not too long. -/
theorem writeInt?_eq (i : Int) :
    writeInt? i = if i.natAbs < 10 ^ digitLimit then some (toString i) else none := by
  simp only [writeInt?, lt_length_toDigits_iff, ite_not]

/-- A written integer is read if it is not too long. -/
theorem readInt?_toString (i : Int) :
    readInt? (toString i).toList = if i.natAbs < 10 ^ digitLimit then some i else none := by
  -- The reader counts digits, and the statement bounds the number.
  rw [readInt?, trimMargins_of_forall fun _ => isBlank_of_mem_toString, takeSign_toString]
  simp only [groupedDigits?_toDigits, List.length_map, lt_length_toDigits_iff, value_toDigits,
    decide_eq_true_eq]
  by_cases hi : i.natAbs < 10 ^ digitLimit
  · rw [if_neg (not_not_intro hi), if_pos hi]
    congr 1
    split <;> omega
  · rw [if_pos hi, if_neg hi]

/-- An integer that was read is not too long to be read again. -/
theorem natAbs_lt_of_readInt? {i : Int} (h : readInt? s = some i) : i.natAbs < 10 ^ digitLimit := by
  rw [readInt?] at h
  cases hds : groupedDigits? (takeSign (trimMargins s)).2 with
  | none => simp [hds] at h
  | some ds =>
    simp only [hds] at h
    by_cases hlength : digitLimit < ds.length
    · simp [hlength] at h
    · have hvalue : value ds < 10 ^ digitLimit :=
        Nat.lt_of_lt_of_le (value_lt (lt_of_mem_groupedDigits? hds))
          (Nat.pow_le_pow_right (by decide) (Nat.le_of_not_lt hlength))
      have habs : i.natAbs = value ds := by
        rw [if_neg hlength, Option.some.injEq] at h
        rw [← h]
        split <;> simp
      rwa [habs]

/-- A written integer begins with a minus or a digit. -/
theorem exists_toList_toString (i : Int) :
    ∃ c rest, (toString i).toList = c :: rest ∧ (c = '-' ∨ c.isDigit = true) := by
  cases hlist : (toString i).toList with
  | nil =>
    rw [toList_toString, List.append_eq_nil_iff] at hlist
    exact absurd hlist.2 Nat.toDigits_ne_nil
  | cons c rest => exact ⟨c, rest, rfl, mem_toString (i := i) (by rw [hlist]; exact List.mem_cons_self)⟩

end VennDiagram.Text
