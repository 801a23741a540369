import VennDiagram.Json.File
import VennDiagram.Json.Writer
import VennDiagram.Rules.Basic

/-!
# `VennDiagram.Rules.Override`: overriding rules from a file

A file of overrides holds an object whose names are names of rules and whose values are finite numbers,
integral ones for the two rules that count something. `ofJson` checks the object and returns the rules
with its values in place of the old ones. Names are checked in the order they stand in the object, and
the first one that does not fit is the error. An integer too large for a double is a failure of its own,
which is not reported like the others.
-/

set_option autoImplicit false

namespace VennDiagram.Rules

/-- A rule whose value is a distance, a length or a factor. -/
inductive RealKey where
  | canvasWidth
  | canvasHeight
  | minOrgSeparation
  | labelPadding
  | charWidth
  | textSidePadding
  | fontSize
  | lineHeight
  | baselineDescent
  | orgGridStep
  | orgInsideMargin
  | orgOutsideMargin
  | labelDistance
  | baseRadius
  | radiusRange
  | ringDistance
  | fallbackLabelOffset
deriving DecidableEq, Repr

/-- A rule whose value is a count. -/
inductive CountKey where
  | maxOrgCandidates
  | labelDirections
deriving DecidableEq, Repr

/-- A rule. -/
inductive Key where
  | real (k : RealKey)
  | count (k : CountKey)
deriving DecidableEq, Repr

/-- The name of a rule in files. -/
def Key.name : Key → String
  | .real .canvasWidth => "canvas_width"
  | .real .canvasHeight => "canvas_height"
  | .real .minOrgSeparation => "min_org_separation"
  | .real .labelPadding => "label_padding"
  | .real .charWidth => "char_width"
  | .real .textSidePadding => "text_side_padding"
  | .real .fontSize => "font_size"
  | .real .lineHeight => "line_height"
  | .real .baselineDescent => "baseline_descent"
  | .real .orgGridStep => "org_grid_step"
  | .real .orgInsideMargin => "org_inside_margin"
  | .real .orgOutsideMargin => "org_outside_margin"
  | .count .maxOrgCandidates => "max_org_candidates"
  | .count .labelDirections => "label_directions"
  | .real .labelDistance => "label_distance"
  | .real .baseRadius => "base_radius"
  | .real .radiusRange => "radius_range"
  | .real .ringDistance => "ring_distance"
  | .real .fallbackLabelOffset => "fallback_label_offset"

/-- All rules. -/
def Key.all : List Key :=
  [ .real .canvasWidth, .real .canvasHeight, .real .minOrgSeparation, .real .labelPadding,
    .real .charWidth, .real .textSidePadding, .real .fontSize, .real .lineHeight,
    .real .baselineDescent, .real .orgGridStep, .real .orgInsideMargin, .real .orgOutsideMargin,
    .count .maxOrgCandidates, .count .labelDirections, .real .labelDistance, .real .baseRadius,
    .real .radiusRange, .real .ringDistance, .real .fallbackLabelOffset ]

/-- The rule of a name. -/
def Key.ofName? (name : String) : Option Key := Key.all.find? (·.name == name)

section
variable {α : Type}

/-- The value of a rule. -/
def getReal (r : Rules α) : RealKey → α
  | .canvasWidth => r.canvasWidth
  | .canvasHeight => r.canvasHeight
  | .minOrgSeparation => r.minOrgSeparation
  | .labelPadding => r.labelPadding
  | .charWidth => r.charWidth
  | .textSidePadding => r.textSidePadding
  | .fontSize => r.fontSize
  | .lineHeight => r.lineHeight
  | .baselineDescent => r.baselineDescent
  | .orgGridStep => r.orgGridStep
  | .orgInsideMargin => r.orgInsideMargin
  | .orgOutsideMargin => r.orgOutsideMargin
  | .labelDistance => r.labelDistance
  | .baseRadius => r.baseRadius
  | .radiusRange => r.radiusRange
  | .ringDistance => r.ringDistance
  | .fallbackLabelOffset => r.fallbackLabelOffset

/-- The value of a rule that counts. -/
def getCount (r : Rules α) : CountKey → Int
  | .maxOrgCandidates => r.maxOrgCandidates
  | .labelDirections => r.labelDirections

/-- The rules with one value replaced. -/
def setReal (r : Rules α) (k : RealKey) (x : α) : Rules α :=
  match k with
  | .canvasWidth => { r with canvasWidth := x }
  | .canvasHeight => { r with canvasHeight := x }
  | .minOrgSeparation => { r with minOrgSeparation := x }
  | .labelPadding => { r with labelPadding := x }
  | .charWidth => { r with charWidth := x }
  | .textSidePadding => { r with textSidePadding := x }
  | .fontSize => { r with fontSize := x }
  | .lineHeight => { r with lineHeight := x }
  | .baselineDescent => { r with baselineDescent := x }
  | .orgGridStep => { r with orgGridStep := x }
  | .orgInsideMargin => { r with orgInsideMargin := x }
  | .orgOutsideMargin => { r with orgOutsideMargin := x }
  | .labelDistance => { r with labelDistance := x }
  | .baseRadius => { r with baseRadius := x }
  | .radiusRange => { r with radiusRange := x }
  | .ringDistance => { r with ringDistance := x }
  | .fallbackLabelOffset => { r with fallbackLabelOffset := x }

/-- The rules with one count replaced. -/
def setCount (r : Rules α) (k : CountKey) (i : Int) : Rules α :=
  match k with
  | .maxOrgCandidates => { r with maxOrgCandidates := i }
  | .labelDirections => { r with labelDirections := i }

end

/-- A checked override. -/
inductive Change where
  | real (k : RealKey) (x : Float)
  | count (k : CountKey) (i : Int)
deriving DecidableEq

/-- The rules with one override applied. -/
def change (r : Rules Float) : Change → Rules Float
  | .real k x => r.setReal k x
  | .count k i => r.setCount k i

/-- Why a value cannot override rules. -/
inductive OverrideError where
  | notAnObject
  | unknownRule (name : String)
  | notANumber (name : String) (v : Json)
  | notFinite (name : String) (v : Json)
  | notWhole (name : String) (v : Json)
  /-- An integer beyond the doubles. -/
  | tooLarge

/-- The message that a rule must be something else than it is, if its value can be shown. -/
def mustBe [Json.Limits] (name kind : String) (v : Json) : Except Failure String :=
  v.display.map fun shown => "layout rule '" ++ name ++ "' must be " ++ kind ++ ", got " ++ shown

/-- The message of an error, if it has one and the value that it shows can be shown. -/
def OverrideError.message [Json.Limits] : OverrideError → Except Failure String
  | .notAnObject => .ok "expected a JSON object of rule overrides"
  | .unknownRule name => .ok ("unknown layout rule '" ++ name ++ "'")
  | .notANumber name v => mustBe name "a number" v
  | .notFinite name v => mustBe name "finite" v
  | .notWhole name v => mustBe name "an integer" v
  | .tooLarge => .error .tooLarge

/-- The change that gives a rule the value `v`. -/
def Key.change (k : Key) (v : Json) : Except OverrideError Change :=
  match v with
  | .int i =>
    -- Also a rule that keeps the integer asks whether its double is finite.
    match Binary64.ofInt? i with
    | none => .error .tooLarge
    | some x =>
      match k with
      | .real k => .ok (.real k x)
      | .count k => .ok (.count k i)
  | .float x =>
    if x.isFinite then
      match k with
      | .real k => .ok (.real k x)
      | .count c =>
        match Binary64.toInt? x with
        | some i => .ok (.count c i)
        | none => .error (.notWhole k.name v)
    else .error (.notFinite k.name v)
  | _ => .error (.notANumber k.name v)

/-- The change of a field of an object. -/
def changeOf (field : String × Json) : Except OverrideError Change :=
  match Key.ofName? field.1 with
  | some k => k.change field.2
  | none => .error (.unknownRule field.1)

/-- The rules with the overrides of a JSON value. -/
def ofJson (base : Rules Float) (v : Json) : Except OverrideError (Rules Float) :=
  match v with
  | .obj fields => (fields.mapM changeOf).map fun changes => changes.foldl change base
  | _ => .error .notAnObject

section
variable [Json.Limits]

/-- The rules with the overrides of a file. -/
def load (base : Rules Float) (content : Except Files.Trouble (List UInt8)) :
    Except (Json.FileError OverrideError) (Rules Float) :=
  match Json.load content with
  | .ok v => (ofJson base v).mapError .unfit
  | .error e => .error e

/-- What is reported about overrides in the file at a path, or the failure. -/
def report (path : String) (e : Json.FileError OverrideError) : Except Failure String :=
  e.report path fun unfit => unfit.message.map fun message => path ++ ": " ++ message

end

end VennDiagram.Rules
