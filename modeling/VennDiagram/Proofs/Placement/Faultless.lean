import VennDiagram.Proofs.Placement.Building
import VennDiagram.Proofs.Placement.Outcome

/-!
# `VennDiagram.Proofs.Placement.Faultless`: a run never fails inside

The last stages of a run in steps, and the run as a whole. Decoding looks the variables of a group up one
after another until one is true, and reads the candidate at its number. In steps it also tells what is
missing; apart from that it is the same, whatever is decoded (`decode_mapError`). In a run all is there,
since a model has a value for every selector and a group is as long as its list of candidates. The
fallback divides by the number of an organization's circles, if it has any.

So a run that checks every step ends as the run does, and the one fault it can have is a scan that does
not end (`Checked.optimize_eq`). Where all scans end there is a layout, whether decoded or fallen back on,
and it has one entry for each category and each organization, in order (`optimize_faultless`). The
document need not be valid, and the rules may keep no candidates and try no directions.
-/

set_option autoImplicit false

namespace VennDiagram

namespace Checked

/-! ### Decoding -/

/-- The number of the first variable of a group that is true, counted from `k` on. -/
def firstTrue (r : Result) (k : Nat) : List Nat → Except Fault (Option Nat)
  | [] => return none
  | var :: rest => do
    let value ← (r.value (.yes var)).mapError Fault.noValue
    if value then return some k else firstTrue r (k + 1) rest

section
variable {β γ δ : Type}

/-- The candidate of an entity whose selector is true. -/
def chosen (r : Result) (groups : List (List Nat)) (candidates : List (List β)) (i : Nat) :
    Except Fault (Option β) := do
  let group ← elementAt groups i
  match ← firstTrue r 0 group with
  | none => return none
  | some k => do
    let own ← elementAt candidates i
    return some (← elementAt own k)

/-- All entities at the candidates whose selectors are true. -/
def placeAll (r : Result) (groups : List (List Nat)) (candidates : List (List β))
    (place : γ → Option β → δ) (entities : List γ) : Except Fault (List δ) :=
  entities.zipIdx.mapM fun (entity, i) => (chosen r groups candidates i).map (place entity)

/-- What decoding says of a fault. It does not tell what is missing. -/
def Fault.decodeError : Fault → DecodeError
  | .unsatisfiable => .unsatisfiable
  | _ => .missingGroup

/-- An element that is missing is missing to decoding. -/
theorem elementAt_mapError (xs : List β) (i : Nat) :
    (elementAt xs i).mapError Fault.decodeError = Decoding.found xs[i]? := by
  rw [elementAt]
  cases xs[i]? <;> rfl

variable (model : Array Bool) (effort : Effort)

/-- A result with a model is asked for the values of the model. -/
theorem firstTrue_mapError (k : Nat) (group : List Nat) :
    (firstTrue ⟨.sat model, effort⟩ k group).mapError Fault.decodeError
      = Decoding.firstTrue model k group := by
  induction group generalizing k with
  | nil => rfl
  | cons v rest ih =>
    have hvalue : ((Result.value ⟨.sat model, effort⟩ (.yes v)).mapError Fault.noValue).mapError
        Fault.decodeError = Decoding.found (Result.valueIn? model v) := by
      simp only [Result.value, Literal.yes]
      cases Result.valueIn? model v <;> rfl
    rw [firstTrue, Decoding.firstTrue, mapError_bind, hvalue]
    refine congrArg (_ >>= ·) (funext fun value => ?_)
    cases value with
    | true => rfl
    | false => exact ih (k + 1)

/-- So it is with each look-up on the way to a candidate. -/
theorem chosen_mapError (groups : List (List Nat)) (candidates : List (List β)) (i : Nat) :
    (chosen ⟨.sat model, effort⟩ groups candidates i).mapError Fault.decodeError
      = Decoding.chosen model groups candidates i := by
  rw [chosen, Decoding.chosen, mapError_bind, elementAt_mapError]
  refine congrArg (_ >>= ·) (funext fun group => ?_)
  rw [mapError_bind, firstTrue_mapError]
  refine congrArg (_ >>= ·) (funext fun number? => ?_)
  cases number? with
  | none => rfl
  | some k =>
    dsimp only
    rw [mapError_bind, elementAt_mapError]
    refine congrArg (_ >>= ·) (funext fun own => ?_)
    rw [mapError_bind, elementAt_mapError]
    rfl

/-- So it is entity by entity. -/
theorem placeAll_mapError (groups : List (List Nat)) (candidates : List (List β))
    (place : γ → Option β → δ) (entities : List γ) :
    (placeAll ⟨.sat model, effort⟩ groups candidates place entities).mapError Fault.decodeError
      = Decoding.placeAll model groups candidates place entities := by
  rw [placeAll, Decoding.placeAll, mapError_mapM]
  refine congrArg (entities.zipIdx.mapM ·) (funext fun p => ?_)
  dsimp only
  rw [← chosen_mapError model effort]
  cases chosen ⟨.sat model, effort⟩ groups candidates p.2 <;> rfl

end

section
variable {α : Type}

/-- The layout that a result of deciding an encoding stands for. -/
def decode (r : Result) (e : Encoding) (organizations : List Organization) (circles : List (Circle α))
    (dots : List (List (DotCandidate α))) (labels : List (List (LabelCandidate α))) :
    Except Fault (Layout α) := do
  if !r.ok then throw .unsatisfiable
  let placedOrganizations ← placeAll r e.orgVars dots
    (fun o chosen => ⟨o, chosen.map DotCandidate.position⟩) organizations
  let placedCircles ← placeAll r e.labelVars labels PlacedCircle.mk circles
  return {
    circles := placedCircles
    organizations := placedOrganizations
    method := .sat
    statistics := none }

/-- Decoding in steps is decoding, whatever is decoded. -/
theorem decode_mapError (r : Result) (e : Encoding) (organizations : List Organization)
    (circles : List (Circle α)) (dots : List (List (DotCandidate α)))
    (labels : List (List (LabelCandidate α))) :
    (decode r e organizations circles dots labels).mapError Fault.decodeError
      = VennDiagram.decode r e organizations circles dots labels := by
  obtain ⟨verdict, effort⟩ := r
  cases verdict with
  | unsat => rfl
  | sat model =>
    show (placeAll _ e.orgVars dots _ organizations >>= _).mapError _
      = (Decoding.placeAll model e.orgVars dots _ organizations >>= _)
    rw [mapError_bind, placeAll_mapError]
    refine congrArg (_ >>= ·) (funext fun placedOrganizations => ?_)
    rw [mapError_bind, placeAll_mapError]
    rfl

variable [Scalar α]

/-! ### The fallback -/

/-- The mean of the centres of an organization's circles. -/
def meanPosition (circles : List (Circle α)) (o : Organization) :
    Except Fault (Option (Position α)) := do
  let own := ownCircles o.categories circles
  if own.isEmpty then return none
  let x ← divide (Scalar.sum (own.map Circle.x)) own.length
  let y ← divide (Scalar.sum (own.map Circle.y)) own.length
  return some ⟨x, y, none⟩

/-- The layout that is used when candidates cannot be chosen without overlap. -/
def fallback (rules : Rules α) (organizations : List Organization) (circles : List (Circle α)) :
    Except Fault (Layout α) := do
  let placed ← organizations.mapM fun o => (meanPosition circles o).map (PlacedOrganization.mk o)
  return {
    circles := circles.map fun c => ⟨c, some (labelAbove rules c)⟩
    organizations := placed
    method := .fallback
    statistics := none }

/-- There is a circle wherever a sum is divided by the number of circles. -/
theorem meanPosition_eq (circles : List (Circle α)) (o : Organization) :
    meanPosition circles o = .ok (meanPosition? circles o) := by
  rw [meanPosition, meanPosition?]
  cases ownCircles o.categories circles with
  | nil => rfl
  | cons c rest =>
    have hlength : (c :: rest).length ≠ 0 := Nat.succ_ne_zero _
    simp only [List.isEmpty_cons, Bool.false_eq_true, if_false, divide_eq _ hlength]
    rfl

/-- Falling back takes no step that cannot be taken. -/
theorem fallback_eq (rules : Rules α) (organizations : List Organization) (circles : List (Circle α)) :
    fallback rules organizations circles = .ok (VennDiagram.fallback rules organizations circles) := by
  have hplaced : ∀ o ∈ organizations,
      (meanPosition circles o).map (PlacedOrganization.mk o)
        = .ok ⟨o, meanPosition? circles o⟩ := by
    intro o _
    rw [meanPosition_eq]
    rfl
  rw [fallback, mapM_eq_ok hplaced]
  rfl

end

/-! ### Runs -/

section
variable {α : Type} [Scalar α]

/-- The run of a document on a canvas whose size overrides that of the rules. -/
def start (rules : Rules α) (d : Document α) (width height : Option α) : Except Fault (Run α) := do
  let x ← divide (width.getD rules.canvasWidth) 2
  let y ← divide (height.getD rules.canvasHeight) 2
  let circles ← circles d rules (x, y)
  let dots ← d.organizations.mapM (dotCandidates rules circles)
  let labels ← circles.mapM (labelCandidates rules)
  let encoding ← encode .empty rules circles dots labels
  let result := encoding.formula.decide
  return { document := d, rules, center := (x, y), circles, dots, labels, encoding, result }

/-- The layout of a run whose search took the given time. -/
def layout (run : Run α) (elapsed : Float) : Except Fault (Layout α) := do
  let placed ←
    if run.result.ok then
      decode run.result run.encoding run.document.organizations run.circles run.dots run.labels
    else fallback run.rules run.document.organizations run.circles
  return { placed with statistics := some (run.statistics elapsed) }

/-- The layout of a document, its search reported to have taken the given time. -/
def optimize (rules : Rules α) (d : Document α) (width height : Option α) (elapsed : Float) :
    Except Fault (Layout α) := do
  let run ← start rules d width height
  layout run elapsed

variable (rules : Rules α) (d : Document α) (width height : Option α)

/-- The candidates of all organizations are found, unless a scan does not end. -/
theorem mapM_dotCandidates_eq (circles : List (Circle α)) (organizations : List Organization) :
    organizations.mapM (dotCandidates rules circles)
      = orFault .endlessScan (allDotCandidates rules circles organizations) := by
  rw [allDotCandidates]
  induction organizations with
  | nil => rfl
  | cons o os ih =>
    rw [List.mapM_cons, List.mapM_cons, ih, dotCandidates_eq]
    cases VennDiagram.dotCandidates rules circles o with
    | none => rfl
    | some found => cases os.mapM (VennDiagram.dotCandidates rules circles) <;> rfl

/-- The stages up to deciding can only fail where a scan does not end. -/
theorem start_eq :
    start rules d width height = (Run.start rules d width height).mapError fun _ => .endlessScan := by
  simp only [start, Run.start, divide_eq _ (Nat.succ_ne_zero 1), bind_ok, circles_eq,
    mapM_dotCandidates_eq]
  generalize d.circles rules _ = circles
  cases hdots : allDotCandidates rules circles d.organizations with
  | none => rfl
  | some dots =>
    have hlabels : (circles.map (VennDiagram.labelCandidates rules)).length = circles.length :=
      List.length_map _
    obtain ⟨e, hencode, -⟩ := Encoding.exists_encodes rules dots hlabels
    simp only [orFault, bind_ok, mapM_eq_ok fun c _ => labelCandidates_eq rules c, encode_eq, hencode]
    rfl

variable {rules d width height} {dots : List (List (DotCandidate α))} {e : Encoding}

/-- With an encoding of its candidates, a run can be decoded, or there is the fallback. -/
theorem layout_eq
    (h : e.Encodes rules (d.fixedCircles rules width height) dots
      ((d.fixedCircles rules width height).map (VennDiagram.labelCandidates rules)))
    (horganizations : d.organizations.length = dots.length) (elapsed : Float) :
    layout (d.run rules width height dots e) elapsed
      = ((d.run rules width height dots e).layout elapsed).mapError fun _ => .endlessScan := by
  have hlabels : ((d.fixedCircles rules width height).map (VennDiagram.labelCandidates rules)).length
      = (d.fixedCircles rules width height).length := List.length_map _
  -- A model of the encoding has a value for each of its variables, so looking them up does not fail.
  rcases h.verdict_cases with ⟨model, hverdict, hmodel, -⟩ | ⟨hverdict, -⟩
  · have hresult : e.formula.decide = ⟨.sat model, e.formula.decide.effort⟩ :=
      congrArg (Result.mk · e.formula.decide.effort) hverdict
    have hok : (d.run rules width height dots e).result.ok = true := by
      simp [Document.run, Result.ok, hverdict]
    have hdecode := h.decode_eq hlabels horganizations.le hmodel.1 e.formula.decide.effort
    rw [← hresult] at hdecode
    have hchecked := mapError_eq_ok_iff.mp ((decode_mapError _ e _ _ _ _).trans hdecode)
    rw [layout, if_pos hok, Run.layout_of_ok elapsed hok hdecode]
    simp only [Document.run, hchecked, bind_ok]
    rfl
  · have hok : (d.run rules width height dots e).result.ok = false := by
      simp [Document.run, Result.ok, hverdict]
    rw [layout, if_neg (by simp [hok]), Run.layout_of_not_ok elapsed hok, fallback_eq]
    rfl

/-- A run can only fail where a scan does not end. -/
theorem optimize_eq (elapsed : Float) :
    optimize rules d width height elapsed
      = (VennDiagram.optimize rules d width height elapsed).mapError fun _ => .endlessScan := by
  rw [optimize, start_eq, VennDiagram.optimize]
  cases hdots : allDotCandidates rules (d.fixedCircles rules width height) d.organizations with
  | none =>
    simp only [Document.fixedCircles, Rules.canvasCenter] at hdots
    simp only [Run.start, hdots]
    rfl
  | some dots =>
    obtain ⟨e, h, hstart⟩ := Run.start_eq hdots
    rw [hstart]
    exact layout_eq h (allDotCandidates_eq_some_iff.mp hdots).length_eq elapsed

end

end Checked

/-! ### Nothing is lost -/

section
variable {α : Type} [Scalar α]

/-- There is one circle for each category, in order, with its name and colour. -/
theorem Document.map_circles (d : Document α) (rules : Rules α) (center : α × α) :
    (d.circles rules center).map (fun c => (c.index, c.name, c.color))
      = d.categories.zipIdx.map fun (c, i) => ((i : Int), c.name, c.color) := by
  rw [Document.circles]
  cases hgiven : d.givenCircles? with
  | none =>
    rw [Option.getD_none, ringCircles, List.map_map, relations, List.map_map]
    rfl
  | some circles =>
    rw [Option.getD_some]
    -- A given circle is that of the category at its place, a circle on the ring is made from one.
    have hcircles : List.Forall₂ (fun p c => Category.circle? p.1 p.2 = some c) d.categories.zipIdx
        circles := by
      rw [givenCircles?] at hgiven
      split at hgiven
      · exact absurd hgiven (by simp)
      · rw [mapM_eq_some_iff, ← List.forall₂_eq_eq_eq, List.forall₂_map_left_iff,
          List.forall₂_map_right_iff] at hgiven
        exact hgiven
    rw [← List.forall₂_eq_eq_eq, List.forall₂_map_left_iff, List.forall₂_map_right_iff]
    refine hcircles.flip.imp fun c p hc => ?_
    obtain ⟨geometry, -, rfl⟩ := Option.map_eq_some_iff.mp hc
    rfl

/-- So have the circles of a document on its canvas. -/
theorem Document.map_fixedCircles (d : Document α) (rules : Rules α) (width height : Option α) :
    (d.fixedCircles rules width height).map (fun c => (c.index, c.name, c.color))
      = d.categories.zipIdx.map fun (c, i) => ((i : Int), c.name, c.color) :=
  d.map_circles rules (rules.canvasCenter width height)

/-- Laying out a document whose scans end never fails inside and loses nothing. The run that checks every
step gives the same layout, which has one circle for each category and one entry for each organization,
in the order of the document, with what the document says of them. -/
theorem optimize_faultless (rules : Rules α) (d : Document α) (width height : Option α) (elapsed : Float)
    (hends : d.ScansEnd rules width height) :
    ∃ l, Checked.optimize rules d width height elapsed = .ok l ∧
      optimize rules d width height elapsed = .ok l ∧
      l.circles.map (fun p => (p.circle.index, p.circle.name, p.circle.color))
        = d.categories.zipIdx.map (fun (c, i) => ((i : Int), c.name, c.color)) ∧
      l.organizations.map PlacedOrganization.organization = d.organizations := by
  obtain ⟨dots, hdots⟩ := Option.isSome_iff_exists.mp hends
  have hlength := (allDotCandidates_eq_some_iff.mp hdots).length_eq
  have hcircles : ∀ l : Layout α, l.circles.map PlacedCircle.circle = d.fixedCircles rules width height →
      l.circles.map (fun p => (p.circle.index, p.circle.name, p.circle.color))
        = d.categories.zipIdx.map fun (c, i) => ((i : Int), c.name, c.color) := by
    intro l hl
    rw [← d.map_fixedCircles rules width height, ← hl, List.map_map]
    rfl
  -- Decoded or fallen back on, a layout is about the circles and the organizations it was made for.
  obtain ⟨statistics, ⟨c, hleast, hlayout⟩ | ⟨-, hlayout⟩⟩ := optimize_cases elapsed hdots
  · refine ⟨_, ?_, hlayout, hcircles _ ?_, ?_⟩
    · rw [Checked.optimize_eq, hlayout]
      rfl
    · exact Choice.map_circle_layout d.organizations hleast.feasible
    · exact Choice.map_organization_layout hleast.feasible hlength
  · refine ⟨_, ?_, hlayout, hcircles _ ?_, ?_⟩
    · rw [Checked.optimize_eq, hlayout]
      rfl
    · exact map_circle_fallback rules d.organizations _
    · exact map_organization_fallback rules d.organizations _

end

/-- Rules that keep no candidate and try no direction, a category without a circle of its own, and an
organization that names a category twice and another one that is not there. -/
theorem optimize_faultless_no_counts :
    let d : Document Float :=
      { categories := [⟨"A", "red", none, none, none⟩]
        organizations := [⟨"a", ["A", "A", "B"], some "", none⟩] }
    let rules := { Rules.standard with maxOrgCandidates := 0, labelDirections := -1 }
    d.ScansEnd rules none none ∧
      ∃ l, Checked.optimize rules d none none 0 = .ok l ∧ optimize rules d none none 0 = .ok l ∧
        l.circles.map (fun p => (p.circle.index, p.circle.name, p.circle.color))
          = d.categories.zipIdx.map (fun (c, i) => ((i : Int), c.name, c.color)) ∧
        l.organizations.map PlacedOrganization.organization = d.organizations := by
  intro d rules
  have hends : d.ScansEnd rules none none := by
    show (allDotCandidates rules (d.fixedCircles rules none none) d.organizations).isSome = true
    decide +kernel
  exact ⟨hends, optimize_faultless rules d none none 0 hends⟩

end VennDiagram
