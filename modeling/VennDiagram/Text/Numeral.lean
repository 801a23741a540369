import VennDiagram.Text.Blank
import VennDiagram.Text.Digit

/-!
# `VennDiagram.Text.Numeral`: numbers in text

An integer is an optional sign and decimal digits of any script; a single underscore may stand between
two digits, and at most `digitLimit` digits are read or written. A decimal number adds a fraction and an
exponent, and the words `inf`, `infinity` and `nan`. Blanks around either do not count, except the
separators of information. Numbers in requests are plainer: ASCII digits only, and a text whose underscores
stand alone inside it is read without them.
-/

set_option autoImplicit false

namespace VennDiagram.Text

/-- The greatest number of digits an integer may be written with. -/
def digitLimit : Nat := 4300

/-- Digits of any script, with single underscores between them. -/
def groupedDigits? : List Char → Option (List Nat)
  | [] => none
  | [c] => (digit? c).map ([·])
  | c :: '_' :: rest => do
    let d ← digit? c
    let ds ← groupedDigits? rest
    return d :: ds
  | c :: rest => do
    let d ← digit? c
    let ds ← groupedDigits? rest
    return d :: ds

/-- One or more ASCII digits. -/
def plainDigits? (s : List Char) : Option (List Nat) :=
  if s.isEmpty then none else s.mapM fun c => if c.isDigit then some (c.toNat - 0x30) else none

/-- A leading sign taken off: whether it was a minus, and the rest. -/
def takeSign : List Char → Bool × List Char
  | '-' :: rest => (true, rest)
  | '+' :: rest => (false, rest)
  | rest => (false, rest)

/-- The character may stand around a number: it is blank and no separator of information. -/
def isMargin (c : Char) : Bool := isBlank c && !(0x1C ≤ c.toNat && c.toNat ≤ 0x1F)

/-- A number without what may stand around it. -/
def trimMargins (s : List Char) : List Char :=
  ((s.dropWhile isMargin).reverse.dropWhile isMargin).reverse

/-- An integer of at most `digitLimit` digits. -/
def readInt? (s : List Char) : Option Int :=
  let (negative, body) := takeSign (trimMargins s)
  match groupedDigits? body with
  | some digits =>
    if digitLimit < digits.length then none
    else some (if negative then -(value digits : Int) else value digits)
  | none => none

/-- An integer in decimal digits, of which there may be at most `digitLimit`. -/
def writeInt? (i : Int) : Option String :=
  if digitLimit < (Nat.toDigits 10 i.natAbs).length then none else some (toString i)

/-- The double nearest to `± digits * 10 ^ exponent`. -/
def scientific (negative : Bool) (digits : Nat) (exponent : Int) : Float :=
  let magnitude :=
    if 0 ≤ exponent then Float.ofScientific digits false exponent.toNat
    else Float.ofScientific digits true (-exponent).toNat
  if negative then -magnitude else magnitude

/-- An unsigned decimal number: digits with a point among or beside them, and perhaps an exponent.
`digits?` reads a run of digits. The number is given by its digits and the exponent of ten. -/
def decimal? (digits? : List Char → Option (List Nat)) (s : List Char) : Option (Nat × Int) := do
  let part? (cs : List Char) : Option (List Nat) := if cs.isEmpty then some [] else digits? cs
  let (front, tail) := s.span fun c => c != 'e' && c != 'E'
  let (whole, fraction) := front.span (· != '.')
  let before ← part? whole
  let after ← part? (fraction.drop 1)
  -- A point alone is no number.
  guard !(before.isEmpty && after.isEmpty)
  let power : Int ←
    match tail with
    | [] => some 0
    | _ :: rest =>
      let (negative, body) := takeSign rest
      (digits? body).map fun ds => if negative then -(value ds : Int) else value ds
  return (value (before ++ after), power - after.length)

/-- A number: a decimal number or one of the words for infinity and NaN, with an optional sign. -/
def number? (digits? : List Char → Option (List Nat)) (s : List Char) : Option Float :=
  let (negative, body) := takeSign s
  let word := body.map Char.toLower
  if word = "inf".toList ∨ word = "infinity".toList then
    some (if negative then -1.0 / 0.0 else 1.0 / 0.0)
  else if word = "nan".toList then
    some (0.0 / 0.0)
  else
    (decimal? digits? body).map fun (digits, exponent) => scientific negative digits exponent

/-- A number as the command line takes it. -/
def readNumber? (s : List Char) : Option Float := number? groupedDigits? (trimMargins s)

/-- The text has two underscores in a row. -/
def hasDoubleUnderscore : List Char → Bool
  | '_' :: '_' :: _ => true
  | _ :: rest => hasDoubleUnderscore rest
  | [] => false

/-- A number as a request may spell it in a text. -/
def readRequestNumber? (s : List Char) : Option Float :=
  match number? plainDigits? (trimMargins s) with
  | some x => some x
  | none =>
    if s.head? = some '_' ∨ s.getLast? = some '_' ∨ hasDoubleUnderscore s ∨ !s.contains '_' then none
    else number? plainDigits? (s.filter (· != '_'))

end VennDiagram.Text
