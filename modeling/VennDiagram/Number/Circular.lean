import VennDiagram.Number.Binary64

/-!
# `VennDiagram.Number.Circular`: correctly rounded sine and cosine

An angle is a double, so it is an exact binary fraction. Its sine and cosine are computed on integers
that stand for numbers scaled by a power of two: the nearest multiple of `π / 2` is taken off, the power
series of the rest is summed, and the sum is rounded once. The scale leaves more than a hundred bits
below the last bit of the result, also for angles close to zero. Apart from the angle zero the value is
never a binary fraction, so the sum is rounded as a number that is not exact.
-/

set_option autoImplicit false

namespace VennDiagram.Circular

/-- `Σ (-1) ^ i * term / (square ^ i * (2 * i + 1))`, summed while `term` is positive. The fuel bounds
the number of terms. -/
def arctanSeries (square : Nat) : (fuel : Nat) → (odd : Nat) → (term : Nat) → (sum : Int) → Int
  | 0, _, _, sum => sum
  | fuel + 1, odd, term, sum =>
    if term = 0 then sum
    else
      let part : Int := (term / odd : Nat)
      arctanSeries square fuel (odd + 2) (term / square) (if odd % 4 = 1 then sum + part else sum - part)

/-- The arc tangent of `1 / n`, scaled by `2 ^ scale`. -/
def arctanInverse (n scale : Nat) : Int :=
  arctanSeries (n * n) (scale + 1) 1 (Nat.pow 2 scale / n) 0

/-- The bits that are carried beyond the scale for truncated terms. -/
def spareBits : Nat := 16

/-- Half of `π`, scaled by `2 ^ scale`: twice `4 * arctan (1 / 5) - arctan (1 / 239)`. -/
def halfPi (scale : Nat) : Int :=
  let fine := scale + spareBits
  (2 * (4 * arctanInverse 5 fine - arctanInverse 239 fine)) >>> spareBits

/-- The sum of the terms that follow from `term` by multiplying with `-square` and dividing by the next
two integers, all scaled by `2 ^ scale`. The fuel bounds the number of terms. -/
def powerSeries (scale : Nat) (square : Int) : (fuel : Nat) → (next : Nat) → (term : Int) → (sum : Int) → Int
  | 0, _, _, sum => sum
  | fuel + 1, next, term, sum =>
    if term = 0 then sum
    else
      let following := -((term * square) >>> scale) / ((next * (next + 1) : Nat) : Int)
      powerSeries scale square fuel (next + 2) following (sum + term)

/-- The sine of `rest`, both scaled by `2 ^ scale`. -/
def scaledSine (scale : Nat) (rest : Int) : Int :=
  powerSeries scale ((rest * rest) >>> scale) (scale + 1) 2 rest 0

/-- The cosine of `rest`, both scaled by `2 ^ scale`. -/
def scaledCosine (scale : Nat) (rest : Int) : Int :=
  powerSeries scale ((rest * rest) >>> scale) (scale + 1) 1 (Nat.pow 2 scale) 0

/-- The sine of an angle shifted by a number of right angles, for a positive angle
`mantissa * 2 ^ exponent`. -/
def shiftedSine (quarters : Nat) (mantissa : Nat) (exponent : Int) : Float :=
  let size := (mantissa.log2 : Int) + exponent
  -- A small angle needs more places, and so does a large one, which loses many right angles.
  let scale := (192 + 3 * (-size)).toNat + 4 * size.toNat
  let angle : Int := (mantissa <<< (exponent + scale).toNat : Nat)
  let right := halfPi scale
  -- The nearest multiple of a right angle is taken off.
  let turns := (2 * angle + right) / (2 * right)
  let rest := angle - turns * right
  let value :=
    match (turns + quarters) % 4 with
    | 0 => scaledSine scale rest
    | 1 => scaledCosine scale rest
    | 2 => -scaledSine scale rest
    | _ => -scaledCosine scale rest
  Binary64.round (value < 0) value.natAbs (-scale) true

/-- The double nearest to the sine of an angle. -/
def sine (x : Float) : Float :=
  match Binary64.parts x with
  | .finite negative mantissa exponent =>
    if mantissa = 0 then x
    else
      let y := shiftedSine 0 mantissa exponent
      if negative then -y else y
  | _ => 0.0 / 0.0

/-- The double nearest to the cosine of an angle. -/
def cosine (x : Float) : Float :=
  match Binary64.parts x with
  | .finite _ mantissa exponent =>
    if mantissa = 0 then 1.0 else shiftedSine 1 mantissa exponent
  | _ => 0.0 / 0.0

end VennDiagram.Circular
