/-!
# `VennDiagram.Number.Binary64`: doubles taken apart and put together

Coordinates are `Float`s. Everything that must be exact about them (their shortest decimal text,
a correctly rounded hypotenuse, sine and cosine) works on their parts: a finite double is
`± mantissa * 2 ^ exponent` with natural mantissa. `parts` takes a double apart, and `round` returns
the double nearest to a number given by an integer mantissa, a binary exponent and a flag that says
whether the number lies strictly above that mantissa. A half goes to the even neighbour.
-/

set_option autoImplicit false

namespace VennDiagram.Binary64

/-- A double, taken apart. A finite one has the value `± mantissa * 2 ^ exponent`. -/
inductive Parts where
  | nan
  | infinite (negative : Bool)
  | finite (negative : Bool) (mantissa : Nat) (exponent : Int)
deriving DecidableEq, Repr

/-- Number of stored mantissa bits. A normal double has one more, which is not stored. -/
def storedBits : Nat := 52

/-- The exponent of the smallest positive double. -/
def minExponent : Int := -1074

/-- The parts of a double. The exponent field 0 marks zero and the subnormal numbers, the field
2047 the infinities and NaN. -/
def parts (x : Float) : Parts :=
  let bits := x.toBits
  let negative := bits >>> 63 == 1
  let field := ((bits >>> 52) &&& 0x7FF).toNat
  let stored := (bits &&& 0xFFFFFFFFFFFFF).toNat
  if field = 0x7FF then
    if stored = 0 then .infinite negative else .nan
  else if field = 0 then
    .finite negative stored minExponent
  else
    .finite negative (stored + Nat.pow 2 storedBits) ((field : Int) - 1075)

/-- The double infinity of the given sign. -/
def infinity (negative : Bool) : Float :=
  if negative then -1.0 / 0.0 else 1.0 / 0.0

/-- The double whose magnitude is `mantissa * 2 ^ exponent`, for a mantissa of at most 53 bits
(or `2 ^ 53` itself) that has 53 bits unless the exponent is `minExponent`. -/
def assemble (negative : Bool) (mantissa : Nat) (exponent : Int) : Float :=
  -- The leading bit of a full mantissa is not stored.
  let magnitude :=
    if mantissa < Nat.pow 2 storedBits then mantissa
    else ((exponent + 1075).toNat <<< storedBits) + (mantissa - Nat.pow 2 storedBits)
  if 0x7FF <<< storedBits ≤ magnitude then
    infinity negative
  else
    let sign : UInt64 := if negative then 0x8000000000000000 else 0
    Float.ofBits (sign ||| UInt64.ofNat magnitude)

/-- The double nearest to `± (mantissa + δ) * 2 ^ exponent`, where `δ = 0` if `inexact` is false and
`0 < δ < 1` otherwise. A half goes to the even neighbour, and a number beyond the largest double goes
to infinity. An inexact mantissa must have more than 54 bits, so that `δ` lies below the rounding
bit. -/
def round (negative : Bool) (mantissa : Nat) (exponent : Int) (inexact : Bool) : Float :=
  if mantissa = 0 then
    assemble negative 0 minExponent
  else
    -- The bits beyond those that a double stores, or below the least exponent.
    let surplus := max ((mantissa.log2 : Int) - storedBits) (minExponent - exponent)
    if surplus ≤ 0 then
      assemble negative (mantissa <<< (-surplus).toNat) (exponent + surplus)
    else
      let drop := surplus.toNat
      let kept := mantissa >>> drop
      let lost := mantissa - kept <<< drop
      let half := 1 <<< (drop - 1)
      -- With something more behind it, a half is more than a half.
      let up := half < lost || (lost == half && (inexact || kept % 2 == 1))
      assemble negative (if up then kept + 1 else kept) (exponent + surplus)

/-- The value of a finite double as an integer, or nothing if it has a fractional part. -/
def toInt? (x : Float) : Option Int :=
  match parts x with
  | .finite negative mantissa exponent =>
    let magnitude? :=
      if 0 ≤ exponent then some (mantissa <<< exponent.toNat)
      else
        let drop := (-exponent).toNat
        if mantissa % Nat.pow 2 drop = 0 then some (mantissa >>> drop) else none
    magnitude?.map fun magnitude => if negative then -(magnitude : Int) else magnitude
  | _ => none

/-- The double nearest to an integer, or nothing if the integer is too large for the doubles. -/
def ofInt? (i : Int) : Option Float :=
  let x := round (i < 0) i.natAbs 0 false
  if x.isFinite then some x else none

end VennDiagram.Binary64
