/-!
# `VennDiagram.Text.Capital`: capital letters

Words that are asked for in any case are compared by their capitals. The words are ASCII, so only letters
whose capitals are ASCII letters have to become capitals; among them are a few that are not ASCII
themselves.
-/

set_option autoImplicit false

namespace VennDiagram.Text

/-- The capitals of a letter, as far as they are ASCII letters. A ligature has several. -/
def capitals (c : Char) : List Char :=
  match c with
  | 'ß' => ['S', 'S']
  | 'ı' => ['I']
  | 'ſ' => ['S']
  | 'ﬀ' => ['F', 'F']
  | 'ﬁ' => ['F', 'I']
  | 'ﬂ' => ['F', 'L']
  | 'ﬃ' => ['F', 'F', 'I']
  | 'ﬄ' => ['F', 'F', 'L']
  | 'ﬅ' => ['S', 'T']
  | 'ﬆ' => ['S', 'T']
  | c => [c.toUpper]

/-- A word in capitals. -/
def capitalized (s : String) : String := String.ofList (s.toList.flatMap capitals)

end VennDiagram.Text
