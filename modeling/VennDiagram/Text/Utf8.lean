import VennDiagram.Text.Quoted

/-!
# `VennDiagram.Text.Utf8`: decoding bytes

Files are UTF-8, decoded strictly: no overlong forms, no surrogates, nothing above U+10FFFF. `decode`
reads one sequence at a time. A fault names the bytes that cannot be decoded, as a half-open range of
offsets, and why: the first byte cannot start a sequence, a later byte does not continue it, or the text
ends inside it.
-/

set_option autoImplicit false

namespace VennDiagram.Text.Utf8

/-- Why bytes cannot be decoded. -/
inductive Reason where
  | startByte
  | continuationByte
  | endOfData
deriving DecidableEq, Repr

/-- The wording of a reason. -/
def Reason.message : Reason → String
  | .startByte => "invalid start byte"
  | .continuationByte => "invalid continuation byte"
  | .endOfData => "unexpected end of data"

/-- Bytes that cannot be decoded: the offset of the first, how many there are, and its value. -/
structure Fault where
  offset : Nat
  count : Nat
  byte : UInt8
  reason : Reason
deriving DecidableEq, Repr

/-- The message of a fault. -/
def Fault.message (f : Fault) : String :=
  let place :=
    if f.count = 1 then
      "byte 0x" ++ String.ofList (hex 2 f.byte.toNat) ++ " in position " ++ toString f.offset
    else
      "bytes in position " ++ toString f.offset ++ "-" ++ toString (f.offset + f.count - 1)
  "'utf-8' codec can't decode " ++ place ++ ": " ++ f.reason.message

/-- The byte continues a sequence. -/
def isContinuation (b : UInt8) : Bool := 0x80 ≤ b && b ≤ 0xBF

/-- The byte may follow `first`: the bounds on a second byte rule out overlong forms, surrogates and
what lies above the last code point. -/
def isSecond (first b : UInt8) : Bool :=
  let low : UInt8 := if first = 0xE0 then 0xA0 else if first = 0xF0 then 0x90 else 0x80
  let high : UInt8 := if first = 0xED then 0x9F else if first = 0xF4 then 0x8F else 0xBF
  low ≤ b && b ≤ high

/-- How many bytes the sequence started by a byte has, or nothing if the byte starts none. -/
def length? (first : UInt8) : Option Nat :=
  if first ≤ 0x7F then some 1
  else if first < 0xC2 then none
  else if first ≤ 0xDF then some 2
  else if first ≤ 0xEF then some 3
  else if first ≤ 0xF4 then some 4
  else none

/-- How many of the bytes after `first` continue its sequence, at most `wanted` of them. -/
def continued (first : UInt8) (wanted : Nat) (rest : List UInt8) : Nat :=
  match rest with
  | b :: more =>
    if 0 < wanted && isSecond first b then 1 + ((more.take (wanted - 1)).takeWhile isContinuation).length
    else 0
  | [] => 0

/-- The code point of a whole sequence. -/
def codePoint (first : UInt8) (rest : List UInt8) : Nat :=
  let lead :=
    if rest.isEmpty then first.toNat
    else first.toNat % Nat.pow 2 (6 - rest.length)
  rest.foldl (fun n b => 64 * n + b.toNat % 64) lead

/-- Decodes the bytes that follow the first `offset` ones of a text, whose characters are in `done`,
the last one first. -/
def decodeFrom (offset : Nat) (done : List Char) : List UInt8 → Except Fault (List Char)
  | [] => .ok done.reverse
  | first :: rest =>
    match length? first with
    | none => .error ⟨offset, 1, first, .startByte⟩
    | some length =>
      let wanted := length - 1
      let found := continued first wanted rest
      -- The bytes that do continue the sequence belong to the fault.
      if found < wanted then
        .error ⟨offset, found + 1, first, if rest.length = found then .endOfData else .continuationByte⟩
      else
        decodeFrom (offset + length) (Char.ofNat (codePoint first (rest.take wanted)) :: done)
          (rest.drop wanted)
termination_by bytes => bytes.length
decreasing_by simp only [List.length_cons, List.length_drop]; omega

/-- The text of the bytes. -/
def decode (bytes : List UInt8) : Except Fault (List Char) := decodeFrom 0 [] bytes

end VennDiagram.Text.Utf8
