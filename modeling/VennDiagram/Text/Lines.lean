/-!
# `VennDiagram.Text.Lines`: line ends

Two rules about line ends. `lines` cuts a text after every line end: line feed, vertical tab, form
feed, carriage return (with a line feed that follows it), the file, group and record separators, the
next-line character, and the line and paragraph separators. `unifyLineEnds` is what reading a text file
does: it turns every carriage return, with a line feed that follows it, into one line feed.
-/

set_option autoImplicit false

namespace VennDiagram.Text

/-- The character ends a line. -/
def isLineEnd (c : Char) : Bool :=
  let n := c.toNat
  (0x0A ≤ n && n ≤ 0x0D) || (0x1C ≤ n && n ≤ 0x1E) || n == 0x85 || n == 0x2028 || n == 0x2029

/-- Every carriage return, with a line feed that follows it, becomes one line feed. -/
def unifyLineEnds : List Char → List Char
  | '\r' :: '\n' :: rest => '\n' :: unifyLineEnds rest
  | '\r' :: rest => '\n' :: unifyLineEnds rest
  | c :: rest => c :: unifyLineEnds rest
  | [] => []

/-- The lines of the text, without their ends. What follows the last line end is a line only if it
is not empty. -/
def lines (s : List Char) : List (List Char) :=
  let pieces := (unifyLineEnds s).splitOnP isLineEnd
  if pieces.getLast? = some [] then pieces.dropLast else pieces

end VennDiagram.Text
