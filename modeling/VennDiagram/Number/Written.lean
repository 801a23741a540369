import VennDiagram.Number.Shortest
import VennDiagram.Text.Numeral

/-!
# `VennDiagram.Number.Written`: how numbers are written

A double is written with the fewest digits that read back. A `Notation` fixes the rest: between which
exponents the point is written in place, and the words for NaN and infinity. A number with an exponent
carries a sign and at least two digits in it, and a whole number written in place keeps one zero after
the point, so a double never looks like an integer.
-/

set_option autoImplicit false

namespace VennDiagram

/-- The choices in writing a double. -/
structure NumberStyle where
  /-- Least exponent of the first digit that is written without an exponent. -/
  leastPlain : Int := -4
  /-- Greatest exponent of the first digit that is written without an exponent. -/
  greatestPlain : Int := 15
  nan : String
  infinity : String

namespace NumberStyle

/-- The style of messages and log lines. -/
def plain : NumberStyle := { nan := "nan", infinity := "inf" }

/-- The style of JSON text. -/
def json : NumberStyle := { nan := "NaN", infinity := "Infinity" }

/-- The digits of a natural number in base ten. -/
def digits (n : Nat) : List Char := Nat.toDigits 10 n

/-- Digits with a point in place: `places` is the exponent of the first digit. -/
def inPlace (ds : List Char) (places : Int) : List Char :=
  if places < 0 then
    '0' :: '.' :: List.replicate (-places - 1).toNat '0' ++ ds
  else
    let whole := places.toNat + 1
    let front := ds.take whole
    let back := ds.drop whole
    front ++ List.replicate (whole - front.length) '0' ++ '.' :: (if back.isEmpty then ['0'] else back)

/-- Digits with the point after the first one and an exponent. -/
def scientific (ds : List Char) (places : Int) : List Char :=
  let front := ds.take 1
  let back := ds.drop 1
  -- An exponent has at least two digits.
  let power := digits places.natAbs
  front ++ (if back.isEmpty then [] else '.' :: back) ++ 'e' :: (if places < 0 then '-' else '+') ::
    List.replicate (2 - power.length) '0' ++ power

/-- A finite magnitude `mantissa * 2 ^ exponent`, written. -/
def magnitude (style : NumberStyle) (mantissa : Nat) (exponent : Int) : List Char :=
  if mantissa = 0 then ['0', '.', '0']
  else
    let d := Shortest.shortest mantissa exponent
    let ds := digits d.digits
    let places := d.exponent + ds.length - 1
    if style.leastPlain ≤ places ∧ places ≤ style.greatestPlain then inPlace ds places
    else scientific ds places

/-- A double, written. -/
def write (style : NumberStyle) (x : Float) : String :=
  let signed (negative : Bool) (cs : List Char) := String.ofList (if negative then '-' :: cs else cs)
  match Binary64.parts x with
  | .nan => style.nan
  | .infinite negative => signed negative style.infinity.toList
  | .finite negative mantissa exponent => signed negative (style.magnitude mantissa exponent)

/-- The whole number nearest to `mantissa * 2 ^ exponent * 10 ^ places`; a half goes to the even
neighbour. -/
def nearestScaled (mantissa : Nat) (exponent : Int) (places : Nat) : Nat :=
  let num := (mantissa * Nat.pow 10 places) <<< exponent.toNat
  let drop := (-exponent).toNat
  let whole := num >>> drop
  let lost := num - whole <<< drop
  let half := 1 <<< (drop - 1)
  if 0 < drop ∧ (half < lost ∨ (lost = half ∧ whole % 2 = 1)) then whole + 1 else whole

/-- The double nearest to a double that is rounded to a number of places after the point. -/
def roundTo (places : Nat) (x : Float) : Float :=
  match Binary64.parts x with
  | .finite negative mantissa exponent =>
    Text.scientific negative (nearestScaled mantissa exponent places) (-places)
  | _ => x

/-- A double with a fixed number of places after the point. -/
def writeFixed (style : NumberStyle) (places : Nat) (x : Float) : String :=
  let signed (negative : Bool) (cs : List Char) := String.ofList (if negative then '-' :: cs else cs)
  match Binary64.parts x with
  | .nan => style.nan
  | .infinite negative => signed negative style.infinity.toList
  | .finite negative mantissa exponent =>
    let n := nearestScaled mantissa exponent places
    let whole := digits (n / Nat.pow 10 places)
    let fraction := digits (n % Nat.pow 10 places)
    let padded := List.replicate (places - fraction.length) '0' ++ fraction
    signed negative (if places = 0 then whole else whole ++ '.' :: padded)

end NumberStyle
end VennDiagram
