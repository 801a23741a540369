import VennDiagram.Text.Utf8

/-!
# `VennDiagram.Text.Units`: text in wide code units

A text may be kept in units of two or four bytes, with the high byte or the low byte first. A unit of
four bytes is a code point. A unit of two bytes is a code point below 0x10000, or half of a surrogate
pair, which stands for one above. Half a pair that stands alone is no character, and texts are made of
characters: units with such a half in them are no text.
-/

set_option autoImplicit false

namespace VennDiagram.Text

/-- The number is the first half of a surrogate pair. -/
def isHighSurrogate (n : Nat) : Bool := 0xD800 ≤ n && n ≤ 0xDBFF

/-- The number is the second half of a surrogate pair. -/
def isLowSurrogate (n : Nat) : Bool := 0xDC00 ≤ n && n ≤ 0xDFFF

/-- The character of the two halves of a surrogate pair. -/
def pairedUnits (high low : Nat) : Char :=
  Char.ofNat (0x10000 + (high - 0xD800) * 0x400 + (low - 0xDC00))

/-- The character of a unit that stands alone, unless it is half of a surrogate pair. -/
def loneUnit? (n : Nat) : Option Char :=
  if isHighSurrogate n || isLowSurrogate n then none else some (Char.ofNat n)

/-- Which byte of a unit comes first. -/
inductive ByteOrder where
  | highFirst
  | lowFirst
deriving DecidableEq, Repr

/-- The number of the bytes of a unit. -/
def ByteOrder.unit (o : ByteOrder) (bytes : List UInt8) : Nat :=
  let ordered := match o with
    | .highFirst => bytes
    | .lowFirst => bytes.reverse
  ordered.foldl (fun n b => 256 * n + b.toNat) 0

/-- The units of two bytes, unless a byte is left. -/
def ByteOrder.pairs? (o : ByteOrder) : List UInt8 → Option (List Nat)
  | [] => some []
  | a :: b :: rest => (o.pairs? rest).map (o.unit [a, b] :: ·)
  | _ => none

/-- The units of four bytes, unless bytes are left. -/
def ByteOrder.quads? (o : ByteOrder) : List UInt8 → Option (List Nat)
  | [] => some []
  | a :: b :: c :: d :: rest => (o.quads? rest).map (o.unit [a, b, c, d] :: ·)
  | _ => none

/-- The characters of units of two bytes. -/
def joinPairs? : List Nat → Option (List Char)
  | [] => some []
  | [n] => (loneUnit? n).map ([·])
  | high :: low :: rest =>
    if isHighSurrogate high && isLowSurrogate low then
      (joinPairs? rest).map (pairedUnits high low :: ·)
    else do
      let c ← loneUnit? high
      let cs ← joinPairs? (low :: rest)
      return c :: cs

/-- The text of bytes in units of two. -/
def decodePairs (o : ByteOrder) (bytes : List UInt8) : Option (List Char) :=
  o.pairs? bytes >>= joinPairs?

/-- The text of bytes in units of four, each of which must be a code point. -/
def decodeQuads (o : ByteOrder) (bytes : List UInt8) : Option (List Char) := do
  let units ← o.quads? bytes
  if units.all (· ≤ 0x10FFFF) then units.mapM loneUnit? else none

end VennDiagram.Text
