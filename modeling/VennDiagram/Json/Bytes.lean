import VennDiagram.Json.Reader
import VennDiagram.Text.Units

/-!
# `VennDiagram.Json.Bytes`: JSON in bytes of unknown encoding

Bytes that hold JSON may begin with a byte-order mark, which tells how they are encoded and is not part
of the text. Without a mark they need not tell: a JSON text begins with ASCII characters, so the nulls
among its first bytes show how wide its code units are and which byte of a unit comes first. Without such
nulls, and in a text of one or three bytes, the encoding is UTF-8.
-/

set_option autoImplicit false

namespace VennDiagram.Json

/-- How bytes encode a text. -/
inductive Encoding where
  | utf8
  | utf16 (o : Text.ByteOrder)
  | utf32 (o : Text.ByteOrder)
deriving DecidableEq, Repr

/-- The encoding that a byte-order mark tells, and the bytes after the mark. The four bytes of a mark are
tried before the two of another one, with which they may begin. -/
def Encoding.ofMark? : List UInt8 → Option (Encoding × List UInt8)
  | 0x00 :: 0x00 :: 0xFE :: 0xFF :: rest => some (.utf32 .highFirst, rest)
  | 0xFF :: 0xFE :: 0x00 :: 0x00 :: rest => some (.utf32 .lowFirst, rest)
  | 0xFE :: 0xFF :: rest => some (.utf16 .highFirst, rest)
  | 0xFF :: 0xFE :: rest => some (.utf16 .lowFirst, rest)
  | 0xEF :: 0xBB :: 0xBF :: rest => some (.utf8, rest)
  | _ => none

/-- The encoding that the first bytes of a text without a mark show. -/
def Encoding.ofBytes : List UInt8 → Encoding
  | 0 :: 0 :: _ :: _ :: _ => .utf32 .highFirst
  | 0 :: _ :: _ :: _ :: _ => .utf16 .highFirst
  | _ :: 0 :: 0 :: 0 :: _ => .utf32 .lowFirst
  | _ :: 0 :: _ :: _ :: _ => .utf16 .lowFirst
  -- Two bytes are too few for the units of four.
  | [0, _] => .utf16 .highFirst
  | [_, 0] => .utf16 .lowFirst
  | _ => .utf8

/-- The text of bytes. -/
def Encoding.decode (e : Encoding) (bytes : List UInt8) : Option (List Char) :=
  match e with
  | .utf8 => (Text.Utf8.decode bytes).toOption
  | .utf16 o => Text.decodePairs o bytes
  | .utf32 o => Text.decodeQuads o bytes

/-- Why bytes cannot be read. -/
inductive BytesError where
  /-- The bytes are no text. -/
  | undecodable
  | unreadable (e : ReadError)
deriving DecidableEq, Repr

/-- Reads bytes, in the encoding that they tell or show. -/
def readBytes [Limits] (bytes : List UInt8) : Except BytesError Json :=
  let (encoding, bytes) := (Encoding.ofMark? bytes).getD (Encoding.ofBytes bytes, bytes)
  match encoding.decode bytes with
  | none => .error .undecodable
  | some text => (readText text).mapError .unreadable

end VennDiagram.Json
