import VennDiagram.Number.Scalar

/-!
# `VennDiagram.Rules.Basic`: the layout rules

The rules are the constants of the geometry, in canvas units: the metrics of label text, the distances
that placements keep, and the grids on which candidates are sampled. Every stage reads them from one
value of `Rules`.
-/

set_option autoImplicit false

namespace VennDiagram

/-- The constants of a layout. -/
structure Rules (α : Type) where
  canvasWidth : α
  canvasHeight : α
  /-- Two organization dots closer than this conflict. -/
  minOrgSeparation : α
  /-- Extra gap required between two labels. -/
  labelPadding : α
  charWidth : α
  textSidePadding : α
  fontSize : α
  lineHeight : α
  /-- Distance from the anchor of a text down to the bottom of its box. -/
  baselineDescent : α
  orgGridStep : α
  /-- An organization sits this far inside each of its circles. -/
  orgInsideMargin : α
  /-- An organization sits this far outside every other circle. -/
  orgOutsideMargin : α
  /-- How many candidates an organization keeps. A negative number drops that many from the end. -/
  maxOrgCandidates : Int
  /-- How many directions are tried for a label. -/
  labelDirections : Int
  /-- Gap between the edge of a circle and the anchor of its label. -/
  labelDistance : α
  baseRadius : α
  radiusRange : α
  ringDistance : α
  fallbackLabelOffset : α
deriving DecidableEq

namespace Rules

/-- The rules that hold unless they are overridden. -/
def standard : Rules Float where
  canvasWidth := 1000.0
  canvasHeight := 800.0
  minOrgSeparation := 60.0
  labelPadding := 15.0
  charWidth := 10.0
  textSidePadding := 20.0
  fontSize := 14.0
  lineHeight := 1.5
  baselineDescent := 8.0
  orgGridStep := 20.0
  orgInsideMargin := 15.0
  orgOutsideMargin := 25.0
  maxOrgCandidates := 100
  labelDirections := 24
  labelDistance := 65.0
  baseRadius := 80.0
  radiusRange := 80.0
  ringDistance := 150.0
  fallbackLabelOffset := 30.0

variable {α : Type} [Scalar α]

/-- The height of a line of text. -/
def textHeight (r : Rules α) : α := r.fontSize * r.lineHeight

/-- The width of a text: every character is equally wide. -/
def textWidth (r : Rules α) (text : String) : α :=
  Scalar.ofNat text.length * r.charWidth + r.textSidePadding

/-- The centre of the canvas. -/
def center (r : Rules α) : α × α :=
  (r.canvasWidth / Scalar.ofNat 2, r.canvasHeight / Scalar.ofNat 2)

end Rules
end VennDiagram
