import Mathlib.Order.Defs.LinearOrder
import VennDiagram.Proofs.Number.Distance

/-!
# `VennDiagram.Proofs.Number.Order`: numbers that are compared

A value of a type of numbers need not be a number: what is a number can be compared with itself. Numbers
are on a line, but two of them may be equal and not the same: a double has two zeros. `Equals` is the
equality that comparing sees, and `Alike` is the same for all values: a value that is no number is alike
to itself only.

`LinearScalar` says that the geometry does not see more than comparing does: values that are alike have
sums and differences that are alike, and alike legs have the same hypotenuse. It also says what can be
calculated without leaving the numbers, if some of the operands are finite.

So the least of several numbers does not depend on their order, up to equality (`least_equals`).

`OrderedAddition` is what a threshold needs that is lowered: what passed the test passes it still.
-/

set_option autoImplicit false

namespace VennDiagram

section
variable {α : Type} [Scalar α] {x x' y : α}

/-- Comparing sees no difference between the two numbers. -/
def Equals (x y : α) : Prop := x ≤ y ∧ y ≤ x

/-- Comparing sees no difference between the two values, be they numbers or not. -/
def Alike (x y : α) : Prop := x = y ∨ Equals x y

/-- Being equal goes both ways. -/
theorem Equals.symm (h : Equals x y) : Equals y x := ⟨h.2, h.1⟩

/-- Equal numbers are alike. -/
theorem Equals.alike (h : Equals x y) : Alike x y := Or.inr h

/-- Everything is like itself, also what is no number. -/
theorem Alike.refl (x : α) : Alike x x := Or.inl rfl

/-- Being alike goes both ways. -/
theorem Alike.symm (h : Alike x y) : Alike y x := h.imp Eq.symm Equals.symm

/-- What is alike to a number equals it. -/
theorem Alike.equals (h : Alike x x') (hx : x ≤ x) : Equals x x' := by
  rcases h with rfl | h
  · exact ⟨hx, hx⟩
  · exact h

end

/-- Less than a number is less than a greater one, and a smaller summand makes a smaller sum. -/
class OrderedAddition (α : Type) [Scalar α] : Prop where
  lt_of_lt_of_le : ∀ x y z : α, x < y → y ≤ z → x < z
  add_lt_of_le : ∀ x y z bound : α, x ≤ y → z + y < bound → z + x < bound

/-- Numbers on a line, of which comparing shows all that calculating needs. -/
class LinearScalar (α : Type) [Scalar α] extends OrderedScalar α where
  /-- A number that is not beyond all others. -/
  IsFinite : α → Prop
  le_self_of_le : ∀ {x y : α}, x ≤ y → x ≤ x ∧ y ≤ y
  le_self_of_lt : ∀ {x y : α}, x < y → x ≤ x ∧ y ≤ y
  le_trans : ∀ {x y z : α}, x ≤ y → y ≤ z → x ≤ z
  le_total : ∀ {x y : α}, x ≤ x → y ≤ y → x ≤ y ∨ y ≤ x
  add_alike : ∀ {x x' y y' : α}, Alike x x' → Alike y y' → Alike (x + y) (x' + y')
  sub_alike : ∀ {x x' y y' : α}, Alike x x' → Alike y y' → Alike (x - y) (x' - y')
  hypotenuse_eq : ∀ {x x' y y' : α}, Alike x x' → Alike y y' →
    Scalar.hypotenuse x y = Scalar.hypotenuse x' y'
  scanBound_eq : ∀ {first first' last last' : α} (step : α), Alike first first' → Alike last last' →
    Scalar.scanBound first last step = Scalar.scanBound first' last' step
  le_self_of_isFinite : ∀ {x : α}, IsFinite x → x ≤ x
  add_le_self : ∀ {x y : α}, IsFinite x → IsFinite y → x + y ≤ x + y
  sub_le_self : ∀ {x y : α}, x ≤ x → y ≤ y → IsFinite x ∨ IsFinite y → x - y ≤ x - y
  hypotenuse_le_self : ∀ {x y : α}, x ≤ x → y ≤ y → Scalar.hypotenuse x y ≤ Scalar.hypotenuse x y

section
variable {α : Type} [Scalar α] [LinearScalar α] {x x' y y' z : α}

/-! ### Comparing what is alike -/

/-- What equals something is a number. -/
theorem Equals.le_self (h : Equals x y) : x ≤ x := (LinearScalar.le_self_of_le h.1).1

/-- The order does not tell apart what is alike. -/
theorem Alike.le_iff (hx : Alike x x') (hy : Alike y y') : x ≤ y ↔ x' ≤ y' := by
  have hleft : x ≤ y ↔ x' ≤ y := by
    rcases hx with rfl | hx
    · exact Iff.rfl
    · exact ⟨LinearScalar.le_trans hx.2, LinearScalar.le_trans hx.1⟩
  have hright : x' ≤ y ↔ x' ≤ y' := by
    rcases hy with rfl | hy
    · exact Iff.rfl
    · exact ⟨fun h => LinearScalar.le_trans h hy.1, fun h => LinearScalar.le_trans h hy.2⟩
  exact hleft.trans hright

/-- What is alike may replace both sides of a strict comparison. -/
theorem Alike.lt_of_lt (hx : Alike x x') (hy : Alike y y') (h : x < y) : x' < y' := by
  obtain ⟨hnumber, hnumber'⟩ := LinearScalar.le_self_of_lt h
  have hnot : ¬ y ≤ x := (OrderedScalar.lt_iff_not_le _ _ hnumber hnumber').mp h
  rw [hx.le_iff hx] at hnumber
  rw [hy.le_iff hy] at hnumber'
  rw [hy.le_iff hx] at hnot
  exact (OrderedScalar.lt_iff_not_le _ _ hnumber hnumber').mpr hnot

/-- So the strict order does not tell apart what is alike. -/
theorem Alike.lt_iff (hx : Alike x x') (hy : Alike y y') : x < y ↔ x' < y' :=
  ⟨hx.lt_of_lt hy, hx.symm.lt_of_lt hy.symm⟩

/-! ### Extremes -/

omit [LinearScalar α] in
/-- Going through a list and keeping the one of two that comes before the other ends with an element
that comes before all, or is level with them. -/
theorem foldl_extreme (before leads : α → α → Prop) [DecidableRel before]
    (htrans : ∀ {x y z : α}, leads x y → leads y z → leads x z)
    (hleads : ∀ {x y : α}, x ≤ x → y ≤ y → (before x y → leads x y) ∧ (¬ before x y → leads y x))
    {first : α} {rest : List α} (hnumbers : ∀ x ∈ first :: rest, x ≤ x) :
    let best := rest.foldl (fun best x => if before x best then x else best) first
    best ∈ first :: rest ∧ ∀ x ∈ first :: rest, leads best x := by
  -- The best so far is the first of the list for the rest of the fold, so the induction is over the rest
  -- for any first element.
  induction rest generalizing first with
  | nil =>
    have hfirst := hnumbers first List.mem_cons_self
    have hself : leads first first := by
      by_cases h : before first first
      · exact (hleads hfirst hfirst).1 h
      · exact (hleads hfirst hfirst).2 h
    refine ⟨List.mem_cons_self, fun x hx => ?_⟩
    obtain rfl := List.mem_singleton.mp hx
    exact hself
  | cons y rest ih =>
    obtain ⟨hfirst, hy, hrest⟩ := List.forall_mem_cons.mp hnumbers |>.imp_right List.forall_mem_cons.mp
    rw [List.foldl_cons]
    split
    · rename_i hbefore
      obtain ⟨hmem, hbest⟩ := ih (List.forall_mem_cons.mpr ⟨hy, hrest⟩)
      refine ⟨List.mem_cons_of_mem _ hmem, List.forall_mem_cons.mpr ⟨?_, hbest⟩⟩
      exact htrans (hbest y List.mem_cons_self) ((hleads hy hfirst).1 hbefore)
    · rename_i hbefore
      obtain ⟨hmem, hbest⟩ := ih (List.forall_mem_cons.mpr ⟨hfirst, hrest⟩)
      obtain ⟨hbestFirst, hbestRest⟩ := List.forall_mem_cons.mp hbest
      have hbestSecond := htrans hbestFirst ((hleads hy hfirst).2 hbefore)
      refine ⟨?_, List.forall_mem_cons.mpr ⟨hbestFirst, List.forall_mem_cons.mpr ⟨hbestSecond, hbestRest⟩⟩⟩
      -- The element that was passed over is still one of the list, so what is found is.
      have hskips : (first :: rest).Sublist (first :: y :: rest) :=
        ((List.Sublist.refl rest).cons y).cons_cons first
      exact hskips.subset hmem

/-- Of two numbers that are not strictly in order the second is below the first. -/
theorem Scalar.le_of_not_lt (hx : x ≤ x) (hy : y ≤ y) (h : ¬ x < y) : y ≤ x := by
  by_contra hnot
  exact h ((OrderedScalar.lt_iff_not_le _ _ hx hy).mpr hnot)

/-- What is strictly below is below. -/
theorem Scalar.le_of_lt (h : x < y) : x ≤ y := by
  obtain ⟨hx, hy⟩ := LinearScalar.le_self_of_lt h
  exact (LinearScalar.le_total hx hy).resolve_right ((OrderedScalar.lt_iff_not_le _ _ hx hy).mp h)

/-- A strict comparison may be followed by one that is not. -/
theorem Scalar.lt_of_lt_of_le (h : x < y) (h' : y ≤ z) : x < z := by
  obtain ⟨hx, hy⟩ := LinearScalar.le_self_of_lt h
  obtain ⟨-, hz⟩ := LinearScalar.le_self_of_le h'
  rw [OrderedScalar.lt_iff_not_le _ _ hx hy] at h
  rw [OrderedScalar.lt_iff_not_le _ _ hx hz]
  exact fun hle => h (LinearScalar.le_trans h' hle)

/-- It may also follow on one that is not. -/
theorem Scalar.lt_of_le_of_lt (h : x ≤ y) (h' : y < z) : x < z := by
  obtain ⟨hx, hy⟩ := LinearScalar.le_self_of_le h
  obtain ⟨-, hz⟩ := LinearScalar.le_self_of_lt h'
  rw [OrderedScalar.lt_iff_not_le _ _ hy hz] at h'
  rw [OrderedScalar.lt_iff_not_le _ _ hx hz]
  exact fun hle => h' (LinearScalar.le_trans hle h)

variable {first first' : α} {rest rest' : List α}

/-- The least of some numbers is one of them, and none is less. -/
theorem least_mem_and_le (hnumbers : ∀ x ∈ first :: rest, x ≤ x) :
    Scalar.least first rest ∈ first :: rest ∧ ∀ x ∈ first :: rest, Scalar.least first rest ≤ x :=
  foldl_extreme (fun x y => x < y) (fun x y => x ≤ y) LinearScalar.le_trans
    (fun hx hy => ⟨Scalar.le_of_lt, Scalar.le_of_not_lt hx hy⟩) hnumbers

/-- The greatest of some numbers is one of them, and none is greater. -/
theorem greatest_mem_and_le (hnumbers : ∀ x ∈ first :: rest, x ≤ x) :
    Scalar.greatest first rest ∈ first :: rest ∧
      ∀ x ∈ first :: rest, x ≤ Scalar.greatest first rest :=
  foldl_extreme (fun x y => y < x) (fun x y => y ≤ x) (fun h h' => LinearScalar.le_trans h' h)
    (fun hx hy => ⟨Scalar.le_of_lt, Scalar.le_of_not_lt hy hx⟩) hnumbers

/-- The least of some numbers does not depend on their order, nor on how often they are there. -/
theorem least_equals (hnumbers : ∀ x ∈ first :: rest, x ≤ x)
    (hsame : ∀ x, x ∈ first' :: rest' ↔ x ∈ first :: rest) :
    Equals (Scalar.least first rest) (Scalar.least first' rest') := by
  obtain ⟨hmem, hle⟩ := least_mem_and_le hnumbers
  obtain ⟨hmem', hle'⟩ := least_mem_and_le fun x hx => hnumbers x ((hsame x).mp hx)
  exact ⟨hle _ ((hsame _).mp hmem'), hle' _ ((hsame _).mpr hmem)⟩

/-- And so it is with the greatest. -/
theorem greatest_equals (hnumbers : ∀ x ∈ first :: rest, x ≤ x)
    (hsame : ∀ x, x ∈ first' :: rest' ↔ x ∈ first :: rest) :
    Equals (Scalar.greatest first rest) (Scalar.greatest first' rest') := by
  obtain ⟨hmem, hle⟩ := greatest_mem_and_le hnumbers
  obtain ⟨hmem', hle'⟩ := greatest_mem_and_le fun x hx => hnumbers x ((hsame x).mp hx)
  exact ⟨hle' _ ((hsame _).mpr hmem), hle _ ((hsame _).mp hmem')⟩

end
end VennDiagram
