import VennDiagram.Number.Binary64

/-!
# `VennDiagram.Number.Shortest`: the shortest decimal that reads back

A decimal `digits * 10 ^ exponent` reads back as a double when it lies in the interval of numbers
that round to that double: between the midpoints to the two neighbours, the midpoints included if the
mantissa is even. `shortest` finds the decimal with the fewest digits in that interval, and of those
the one nearest to the double, a tie going to even digits. For each count of digits only two decimals
can be meant, the two neighbours of the double on the grid with that many digits.
-/

set_option autoImplicit false

namespace VennDiagram.Shortest

/-- The decimal number `digits * 10 ^ exponent`. -/
structure Decimal where
  digits : Nat
  exponent : Int
deriving DecidableEq, Repr

/-- A positive number and the interval around it in which a decimal reads back, all four as
quotients over `scale`. -/
structure Target where
  value : Nat
  low : Nat
  high : Nat
  scale : Nat
  closed : Bool

/-- The target of the double `mantissa * 2 ^ exponent`. Below a power of two the spacing of the
doubles halves, so there the lower midpoint is nearer. -/
def Target.ofParts (mantissa : Nat) (exponent : Int) : Target :=
  let shift := exponent.toNat
  let scale := 4 <<< (-exponent).toNat
  let below := if mantissa = Nat.pow 2 52 ∧ Binary64.minExponent < exponent then 1 else 2
  { value := (4 * mantissa) <<< shift
    low := (4 * mantissa - below) <<< shift
    high := (4 * mantissa + 2) <<< shift
    scale := scale
    closed := mantissa % 2 = 0 }

/-- The decimal `digits * 10 ^ exponent` as a quotient, with the numerator on the left. -/
def Decimal.quotient (d : Decimal) : Nat × Nat :=
  (d.digits * Nat.pow 10 d.exponent.toNat, Nat.pow 10 (-d.exponent).toNat)

/-- The decimal reads back as the double the target was made from. -/
def Target.contains (t : Target) (d : Decimal) : Bool :=
  let (num, den) := d.quotient
  let x := num * t.scale
  let low := t.low * den
  let high := t.high * den
  if t.closed then low ≤ x && x ≤ high else low < x && x < high

/-- The distance from the decimal to the target's value, over a common scale for decimals of one
exponent. -/
def Target.distance (t : Target) (d : Decimal) : Nat :=
  let (num, den) := d.quotient
  let x := num * t.scale
  let v := t.value * den
  max x v - min x v

/-- The nearer of two neighbours on a grid; of two equally near ones the one with even digits. -/
def Target.nearer (t : Target) (below above : Decimal) : Decimal :=
  if t.distance above < t.distance below ∨
      (t.distance above = t.distance below ∧ below.digits % 2 = 1) then above
  else below

/-- The two neighbours of the target on the decimal grid `10 ^ exponent`: the nearer one that reads
back, if there is one. -/
def Target.onGrid? (t : Target) (exponent : Int) : Option Decimal :=
  let digits := t.value * Nat.pow 10 (-exponent).toNat / (t.scale * Nat.pow 10 exponent.toNat)
  let below : Decimal := ⟨digits, exponent⟩
  let above : Decimal := ⟨digits + 1, exponent⟩
  match t.contains below, t.contains above with
  | true, true => some (t.nearer below above)
  | true, false => some below
  | false, true => some above
  | false, false => none

/-- The number of decimal digits of a positive natural number, less one. -/
def magnitude (n : Nat) : Nat := (Nat.toDigits 10 n).length - 1

/-- The exponent of the first decimal digit of the target's value: the value lies between this
power of ten and the next. -/
def Target.leading (t : Target) : Int :=
  if t.scale ≤ t.value then
    (magnitude (t.value / t.scale) : Int)
  else
    let n := magnitude (t.scale / t.value)
    -- The quotient lies between `10 ^ n` and `10 ^ (n + 1)`, its inverse one power of ten lower.
    if t.scale ≤ t.value * Nat.pow 10 n then -(n : Int) else -(n : Int) - 1

/-- Trailing zeros moved from the digits into the exponent. The fuel bounds the number of digits. -/
def Decimal.strip : Nat → Decimal → Decimal
  | 0, d => d
  | fuel + 1, d =>
    if d.digits ≠ 0 ∧ d.digits % 10 = 0 then strip fuel ⟨d.digits / 10, d.exponent + 1⟩ else d

/-- The shortest decimal that reads back as the double `mantissa * 2 ^ exponent`, for a positive
mantissa. Seventeen digits always suffice. -/
def shortest (mantissa : Nat) (exponent : Int) : Decimal :=
  let t := Target.ofParts mantissa exponent
  let leading := t.leading
  -- A finer grid means one more digit, so the first grid on which a decimal reads back is the one.
  let found := (List.range 17).findSome? fun n : Nat => t.onGrid? (leading - (n : Int))
  (found.getD ⟨mantissa, exponent⟩).strip 18

end VennDiagram.Shortest
