import VennDiagram.Json.Basic
import VennDiagram.Text.Numeral
import VennDiagram.Text.Units

/-!
# `VennDiagram.Json.Reader`: reading JSON text

The reader walks over the characters of a text. The words `NaN`, `Infinity` and `-Infinity` are numbers;
a control character inside a string is refused; blanks are the space, the tab and the two line ends. A
number without fraction and exponent is an integer of at most `Text.digitLimit` digits, and at most
`Limits.depth` arrays and objects may lie within each other. A string is made of characters, so an escape
of half a surrogate pair that stands alone is refused as well, unless something else is wrong with the text:
the functions take what stands for such a half, or nothing if it is a fault.

Every function takes the characters that are left and returns a value with the characters left after
it. A fault names the place it was found by the characters left there, so its offset in the text is the
length of the text less theirs. `SyntaxError` gives a fault its line and column: lines end at line feeds,
and both counts start at one.
-/

set_option autoImplicit false

namespace VennDiagram.Json

/-- What is wrong at a place of the text. -/
inductive Reason where
  | byteOrderMark
  | expectedValue
  | expectedName
  | expectedColon
  | expectedComma
  | extraData
  | unterminatedString
  | controlCharacter
  | invalidEscape
  | invalidUnicodeEscape
  | loneHalf
deriving DecidableEq, Repr

/-- The wording of a reason. -/
def Reason.message : Reason → String
  | .byteOrderMark => "Unexpected UTF-8 BOM (decode using utf-8-sig)"
  | .expectedValue => "Expecting value"
  | .expectedName => "Expecting property name enclosed in double quotes"
  | .expectedColon => "Expecting ':' delimiter"
  | .expectedComma => "Expecting ',' delimiter"
  | .extraData => "Extra data"
  | .unterminatedString => "Unterminated string starting at"
  | .controlCharacter => "Invalid control character at"
  | .invalidEscape => "Invalid \\escape"
  | .invalidUnicodeEscape => "Invalid \\uXXXX escape"
  | .loneHalf => "Unpaired surrogate"

/-- A value with values in it. -/
inductive Container where
  | array
  | object
deriving DecidableEq, Repr

/-- The name of a kind of container. -/
def Container.name : Container → String
  | .array => "array"
  | .object => "object"

/-- A fault, with the characters that are left at its place, an integer with too many digits, or a
container that lies too deep. -/
inductive Fault where
  | syntaxAt (reason : Reason) (left : List Char)
  | tooManyDigits (count : Nat)
  | tooDeep (container : Container)

/-- A syntax error and its place in the text. -/
structure SyntaxError where
  reason : Reason
  offset : Nat
  line : Nat
  column : Nat
deriving DecidableEq, Repr

/-- The message of a syntax error. -/
def SyntaxError.message (e : SyntaxError) : String :=
  e.reason.message ++ ": line " ++ toString e.line ++ " column " ++ toString e.column ++
    " (char " ++ toString e.offset ++ ")"

/-- The syntax error at an offset of a text. -/
def SyntaxError.at (text : List Char) (reason : Reason) (offset : Nat) : SyntaxError :=
  let before := text.take offset
  { reason := reason
    offset := offset
    line := before.count '\n' + 1
    column := (before.reverse.takeWhile (· != '\n')).length + 1 }

/-- Why a text cannot be read. -/
inductive ReadError where
  | malformed (e : SyntaxError)
  | tooManyDigits (count : Nat)
  | tooDeep (container : Container)
deriving DecidableEq, Repr

/-- What a read leaves: a value and the characters after it. -/
abbrev Step (α : Type) := Except Fault (α × List Char)

/-- The character separates tokens. -/
def isSpace (c : Char) : Bool := c == ' ' || c == '\t' || c == '\n' || c == '\r'

/-- The characters left after blanks. -/
def skip (s : List Char) : List Char := s.dropWhile isSpace

/-! ### Strings -/

/-- The value of a hexadecimal digit. -/
def hexDigit? (c : Char) : Option Nat :=
  if c.isDigit then some (c.toNat - 0x30)
  else if 'a' ≤ c ∧ c ≤ 'f' then some (c.toNat - 0x57)
  else if 'A' ≤ c ∧ c ≤ 'F' then some (c.toNat - 0x37)
  else none

/-- The first four characters as a hexadecimal number. -/
def hexFour? (s : List Char) : Option Nat :=
  match (s.take 4).mapM hexDigit? with
  | some ds => if ds.length = 4 then some (ds.foldl (fun n d => 16 * n + d) 0) else none
  | none => none

section
variable (half? : Option Char)

/-- The character of an escape that stands alone, from the `u` on. -/
def loneEscape (s : List Char) (unit : Nat) : Except Fault (Char × Nat) :=
  match (Text.loneUnit? unit).or half? with
  | some c => .ok (c, 5)
  | none => .error (.syntaxAt .loneHalf s)

/-- A `\u` escape, from the `u` on: the character, and how many characters the escape takes from there.
A first half of a surrogate pair is joined with an escape of the second half that follows it. At least
one character must follow each escape. -/
def unicodeEscape (s : List Char) : Except Fault (Char × Nat) :=
  let body := s.drop 1
  if (body.take 5).length ≤ 4 then .error (.syntaxAt .invalidUnicodeEscape s)
  else
    match hexFour? body with
    | none => .error (.syntaxAt .invalidUnicodeEscape s)
    | some unit =>
      let after := body.drop 4
      -- The second escape is looked at only if all of it is there and a character follows.
      if Text.isHighSurrogate unit && 6 < (after.take 7).length && after.take 2 == ['\\', 'u'] then
        match hexFour? (after.drop 2) with
        | none => .error (.syntaxAt .invalidUnicodeEscape (after.drop 1))
        | some second =>
          if Text.isLowSurrogate second then .ok (Text.pairedUnits unit second, 11)
          else loneEscape half? s unit
      else loneEscape half? s unit

/-- The character of a one-letter escape. -/
def plainEscape? : Char → Option Char
  | '"' => some '"'
  | '\\' => some '\\'
  | '/' => some '/'
  | 'b' => some '\x08'
  | 'f' => some '\x0c'
  | 'n' => some '\n'
  | 'r' => some '\r'
  | 't' => some '\t'
  | _ => none

/-- The rest of a string. `start` is what was left at its opening quote, and `done` holds the
characters read so far, the last one first. The fuel bounds the characters left. -/
def readString (start : List Char) : Nat → List Char → List Char → Step String
  | 0, _, _ => .error (.syntaxAt .unterminatedString start)
  | _ + 1, _, [] => .error (.syntaxAt .unterminatedString start)
  | fuel + 1, done, c :: rest =>
    if c = '"' then .ok (String.ofList done.reverse, rest)
    else if c = '\\' then
      match rest with
      | [] => .error (.syntaxAt .unterminatedString start)
      | e :: more =>
        if e = 'u' then
          match unicodeEscape half? rest with
          | .error fault => .error fault
          | .ok (escaped, count) => readString start fuel (escaped :: done) (rest.drop count)
        else
          match plainEscape? e with
          | some escaped => readString start fuel (escaped :: done) more
          | none => .error (.syntaxAt .invalidEscape (c :: rest))
    else if c.toNat < 0x20 then .error (.syntaxAt .controlCharacter (c :: rest))
    else readString start fuel (c :: done) rest

end

/-! ### Numbers -/

/-- A fraction: a point and digits, or nothing. -/
def takeFraction : List Char → List Char × List Char
  | '.' :: rest =>
    let ds := rest.takeWhile Char.isDigit
    -- A point without digits is not part of the number.
    if ds.isEmpty then ([], '.' :: rest) else (ds, rest.dropWhile Char.isDigit)
  | rest => ([], rest)

/-- An exponent: a letter `e`, an optional sign and digits, or nothing. -/
def takeExponent : List Char → Option Int × List Char
  | c :: rest =>
    if c = 'e' ∨ c = 'E' then
      let (negative, body) := Text.takeSign rest
      let ds := body.takeWhile Char.isDigit
      -- Nor is a letter without digits.
      if ds.isEmpty then (none, c :: rest)
      else
        let power := Text.value ((Text.plainDigits? ds).getD [])
        (some (if negative then -(power : Int) else power), body.dropWhile Char.isDigit)
    else (none, c :: rest)
  | [] => (none, [])

/-- The digits before the point: a zero alone, or digits that do not begin with one. -/
def takeWhole : List Char → List Char × List Char
  | '0' :: rest => (['0'], rest)
  | rest => (rest.takeWhile Char.isDigit, rest.dropWhile Char.isDigit)

/-- The sign of a number: a minus, or nothing. -/
def takeMinus : List Char → Bool × List Char
  | '-' :: rest => (true, rest)
  | rest => (false, rest)

/-- A number, from its first character on. -/
def readNumber (s : List Char) : Step Json :=
  let (negative, body) := takeMinus s
  let (whole, rest) := takeWhole body
  if whole.isEmpty then .error (.syntaxAt .expectedValue s)
  else
    let (fraction, rest) := takeFraction rest
    let (power?, rest) := takeExponent rest
    let digits := Text.value ((Text.plainDigits? (whole ++ fraction)).getD [])
    -- Without a fraction and an exponent it is an integer, and only the digits of integers are limited.
    if fraction.isEmpty && power?.isNone then
      if Text.digitLimit < whole.length then .error (.tooManyDigits whole.length)
      else .ok (.int (if negative then -(digits : Int) else digits), rest)
    else
      .ok (.float (Text.scientific negative digits (power?.getD 0 - fraction.length)), rest)

/-! ### Values -/

/-- A word that is a value. -/
def words : List (List Char × Json) :=
  [ ("null".toList, .null), ("true".toList, .bool true), ("false".toList, .bool false),
    ("NaN".toList, .float (0.0 / 0.0)), ("Infinity".toList, .float (1.0 / 0.0)),
    ("-Infinity".toList, .float (-1.0 / 0.0)) ]

/-- A word or a number. -/
def readScalar (s : List Char) : Step Json :=
  -- The words come first, since one of them begins like a number.
  match words.find? fun (word, _) => word.isPrefixOf s with
  | some (word, v) => .ok (v, s.drop word.length)
  | none => readNumber s

section
variable (half? : Option Char)

mutual

/-- A value, from its first character on. At most `depth` containers may lie within each other from
here. The fuel is at least twice the number of characters left, so it also bounds the reading of a
string. -/
def readValue : (depth fuel : Nat) → List Char → Step Json
  | _, 0, s => .error (.syntaxAt .expectedValue s)
  | depth, fuel + 1, s =>
    match s, depth with
    | '"' :: rest, _ =>
      match readString half? s fuel [] rest with
      | .ok (text, rest) => .ok (.str text, rest)
      | .error fault => .error fault
    | '[' :: _, 0 => .error (.tooDeep .array)
    | '[' :: rest, depth + 1 =>
      match skip rest with
      | ']' :: rest => .ok (.arr [], rest)
      | inside => readItems depth fuel [] inside
    | '{' :: _, 0 => .error (.tooDeep .object)
    | '{' :: rest, depth + 1 =>
      match skip rest with
      | '}' :: rest => .ok (.obj [], rest)
      | inside => readFields depth fuel [] inside
    | _, _ => readScalar s

/-- The items of an array that are left, from the first character of an item on; `done` holds the
items read so far, the last one first. -/
def readItems : (depth fuel : Nat) → List Json → List Char → Step Json
  | _, 0, _, s => .error (.syntaxAt .expectedValue s)
  | depth, fuel + 1, done, s =>
    match readValue depth fuel s with
    | .error fault => .error fault
    | .ok (v, rest) =>
      match skip rest with
      | ']' :: rest => .ok (.arr (v :: done).reverse, rest)
      | ',' :: rest => readItems depth fuel (v :: done) (skip rest)
      | other => .error (.syntaxAt .expectedComma other)

/-- The fields of an object that are left, from the quote of a name on; `done` holds the fields read
so far, the last one first. -/
def readFields : (depth fuel : Nat) → List (String × Json) → List Char → Step Json
  | _, 0, _, s => .error (.syntaxAt .expectedValue s)
  | depth, fuel + 1, done, s =>
    match s with
    | '"' :: rest =>
      match readString half? s fuel [] rest with
      | .error fault => .error fault
      | .ok (name, rest) =>
        match skip rest with
        | ':' :: rest =>
          match readValue depth fuel (skip rest) with
          | .error fault => .error fault
          | .ok (v, rest) =>
            match skip rest with
            | '}' :: rest => .ok (object ((name, v) :: done).reverse, rest)
            | ',' :: rest => readFields depth fuel ((name, v) :: done) (skip rest)
            | other => .error (.syntaxAt .expectedComma other)
        | other => .error (.syntaxAt .expectedColon other)
    | other => .error (.syntaxAt .expectedName other)

end

/-- A whole text: one value between blanks. -/
def readDocument [Limits] (text : List Char) : Except Fault Json :=
  match readValue half? Limits.depth (2 * text.length + 2) (skip text) with
  | .error fault => .error fault
  | .ok (v, rest) =>
    match skip rest with
    | [] => .ok v
    | other => .error (.syntaxAt .extraData other)

end

/-- A fault, placed in its text. -/
def Fault.place (text : List Char) : Fault → ReadError
  | .syntaxAt reason left => .malformed (SyntaxError.at text reason (text.length - left.length))
  | .tooManyDigits count => .tooManyDigits count
  | .tooDeep container => .tooDeep container

section
variable [Limits]

/-- Reads a text. A half of a pair that stands alone is the last thing that can be wrong with it. -/
def readText (text : List Char) : Except ReadError Json :=
  -- With a character in the place of such a half, the first read finds everything else.
  (readDocument (some '\uFFFD') text >>= fun _ => readDocument none text).mapError (Fault.place text)

/-- Reads a text, which must not begin with a byte-order mark. -/
def read (text : List Char) : Except ReadError Json :=
  if text.head? = some '\uFEFF' then .error (.malformed (SyntaxError.at text .byteOrderMark 0))
  else readText text

end

end VennDiagram.Json
