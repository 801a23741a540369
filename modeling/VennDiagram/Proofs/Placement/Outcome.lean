import VennDiagram.Placement.Run
import VennDiagram.Proofs.Placement.Candidates
import VennDiagram.Proofs.Placement.Picks

/-!
# `VennDiagram.Proofs.Placement.Outcome`: what laying out a document guarantees

If the scan of every grid ends, laying out a document cannot fail. It ends in one of two ways
(`optimize_cases`): with the layout of the least feasible choice, or with the fallback because no choice
is feasible.

`Layout.WellPlaced` says what the first kind of layout is good for. Every organization that has
candidates is at one of them, and so at a point that was accepted with its score; the others are left
out. No two dots are too close and no two labels overlap, in whatever order they are named. The program
compares an earlier one with a later one only, and that is enough where distances are symmetric.

The documents need not be valid: names may be doubled, and categories may be unknown.
-/

set_option autoImplicit false

namespace VennDiagram

section
variable {α : Type} [Scalar α]

/-- The centre of a canvas whose size overrides that of the rules. -/
def Rules.canvasCenter (rules : Rules α) (width height : Option α) : α × α :=
  (width.getD rules.canvasWidth / Scalar.ofNat 2, height.getD rules.canvasHeight / Scalar.ofNat 2)

/-- The circles of the document on such a canvas. -/
def Document.fixedCircles (d : Document α) (rules : Rules α) (width height : Option α) :
    List (Circle α) :=
  d.circles rules (rules.canvasCenter width height)

/-- The circles depend on the organizations by counts of memberships only. -/
theorem Document.fixedCircles_eq_of_countP {d d' : Document α} (hcategories : d'.categories = d.categories)
    (hcount : ∀ test : (String → Bool) → Bool,
      (d'.organizations.countP fun o => test o.isIn) = d.organizations.countP fun o => test o.isIn)
    (rules : Rules α) (width height : Option α) :
    d'.fixedCircles rules width height = d.fixedCircles rules width height := by
  have hmembers : ∀ name, memberCount d'.organizations name = memberCount d.organizations name :=
    fun name => hcount fun isIn => isIn name
  have hshared : ∀ name other,
      sharedCount d'.organizations name other = sharedCount d.organizations name other :=
    fun name other => hcount fun isIn => isIn name && isIn other
  simp only [fixedCircles, Document.circles, givenCircles?, ringCircles, relations, hcategories, hmembers,
    hshared]

/-- The circle of a category that comes with it. -/
def Category.circle? (c : Category α) (index : Nat) : Option (Circle α) :=
  c.geometry?.map fun (x, y, r) => { index, name := c.name, color := c.color, x, y, r }

omit [Scalar α] in
/-- A category gives a circle exactly if all its coordinates are there. -/
theorem Category.isSome_circle? (c : Category α) (index : Nat) :
    (c.circle? index).isSome = c.hasGeometry := by
  rw [circle?, Option.isSome_map, geometry?, hasGeometry]
  cases c.x <;> cases c.y <;> cases c.r <;> rfl

/-- If every category comes with its circle, the circles of the document are these, on any canvas. -/
theorem Document.map_some_fixedCircles {d : Document α}
    (hgeometry : ∀ c ∈ d.categories, c.hasGeometry = true) (rules : Rules α) (width height : Option α) :
    (d.fixedCircles rules width height).map some
      = d.categories.zipIdx.map fun (c, i) => c.circle? i := by
  -- Without categories the ring is laid out, which is empty as well.
  by_cases hempty : d.categories = []
  · simp [fixedCircles, Document.circles, givenCircles?, ringCircles, relations, hempty]
  · have hgiven : d.givenCircles? = d.categories.zipIdx.mapM fun (c, i) => c.circle? i := by
      rw [givenCircles?, List.isEmpty_eq_false_iff.mpr hempty]
      rfl
    have hsome : ∀ p ∈ d.categories.zipIdx, (p.1.circle? p.2).isSome = true := by
      rintro ⟨c, i⟩ hp
      rw [Category.isSome_circle?]
      exact hgeometry c (List.fst_mem_of_mem_zipIdx hp)
    obtain ⟨circles, hcircles⟩ := exists_map_some_eq hsome
    rw [fixedCircles, Document.circles, hgiven, mapM_eq_some_iff.mpr hcircles.symm]
    exact hcircles

/-- The scan of the grid ends for every organization. -/
def Document.ScansEnd (d : Document α) (rules : Rules α) (width height : Option α) : Prop :=
  (allDotCandidates rules (d.fixedCircles rules width height) d.organizations).isSome = true

/-! ### The two outcomes -/

section
variable {rules : Rules α} {d : Document α} {width height : Option α}
  {dots : List (List (DotCandidate α))}

/-- The run of a document whose candidates have been found and encoded. -/
def Document.run (d : Document α) (rules : Rules α) (width height : Option α)
    (dots : List (List (DotCandidate α))) (e : Encoding) : Run α :=
  let circles := d.fixedCircles rules width height
  { document := d
    rules
    center := rules.canvasCenter width height
    circles
    dots
    labels := circles.map (labelCandidates rules)
    encoding := e
    result := e.formula.decide }

/-- If the scans end, a run gets as far as deciding the encoding of all candidates. -/
theorem Run.start_eq
    (hdots : allDotCandidates rules (d.fixedCircles rules width height) d.organizations = some dots) :
    ∃ e, Encoding.Encodes rules (d.fixedCircles rules width height) dots
        ((d.fixedCircles rules width height).map (labelCandidates rules)) e ∧
      Run.start rules d width height = .ok (d.run rules width height dots e) := by
  have hlabels : ((d.fixedCircles rules width height).map (labelCandidates rules)).length
      = (d.fixedCircles rules width height).length := List.length_map _
  obtain ⟨e, hencode, h⟩ := Encoding.exists_encodes rules dots hlabels
  refine ⟨e, h, ?_⟩
  -- A run spells out the centre and the circles, so they are unfolded before its stages are rewritten.
  simp only [Document.fixedCircles, Rules.canvasCenter] at hdots hencode
  simp only [start, hdots, hencode]
  rfl

/-- A run whose formula has a model gives what decoding gives. -/
theorem Run.layout_of_ok {run : Run α} {l : Layout α} (elapsed : Float) (hok : run.result.ok = true)
    (hdecode : decode run.result run.encoding run.document.organizations run.circles run.dots run.labels
      = .ok l) :
    run.layout elapsed = .ok { l with statistics := some (run.statistics elapsed) } := by
  simp only [layout, hok, if_true, hdecode]

/-- A run whose formula has no model falls back. -/
theorem Run.layout_of_not_ok {run : Run α} (elapsed : Float) (hok : run.result.ok = false) :
    run.layout elapsed
      = .ok { fallback run.rules run.document.organizations run.circles with
              statistics := some (run.statistics elapsed) } := by
  simp only [layout, hok, Bool.false_eq_true, if_false]

/-- A layout is that of the least feasible choice, or the fallback if no choice is feasible. -/
theorem optimize_cases (elapsed : Float)
    (hdots : allDotCandidates rules (d.fixedCircles rules width height) d.organizations = some dots) :
    let circles := d.fixedCircles rules width height
    let labels := circles.map (labelCandidates rules)
    ∃ statistics : Option Statistics,
      (∃ c : Choice, c.IsLeast rules circles dots labels ∧
          optimize rules d width height elapsed
            = .ok { c.layout d.organizations circles dots labels with statistics }) ∨
        (∀ c : Choice, ¬ c.Feasible rules circles dots labels) ∧
          optimize rules d width height elapsed
            = .ok { fallback rules d.organizations circles with statistics } := by
  intro circles labels
  obtain ⟨e, h, hstart⟩ := Run.start_eq hdots
  have hlayout : optimize rules d width height elapsed
      = (d.run rules width height dots e).layout elapsed := by
    rw [optimize, hstart]
  refine ⟨some ((d.run rules width height dots e).statistics elapsed), ?_⟩
  rw [hlayout]
  -- The formula encodes the choices, so its verdict says whether there is one and a model is read as the
  -- least.
  rcases h.decide_cases with ⟨model, hverdict, -, hleast⟩ | ⟨hverdict, hnone⟩
  · have hok : e.formula.decide.ok = true := by simp [Result.ok, hverdict]
    have hlength := (allDotCandidates_eq_some_iff.mp hdots).length_eq
    have hdecode := h.decode_decide (List.length_map _) hlength hleast
    exact Or.inl ⟨_, hleast, Run.layout_of_ok elapsed hok hdecode⟩
  · have hok : e.formula.decide.ok = false := by simp [Result.ok, hverdict]
    exact Or.inr ⟨hnone, Run.layout_of_not_ok elapsed hok⟩

end

end

/-! ### Lists side by side -/

section
variable {β γ δ : Type} {xs : List β} {ys : List γ}

/-- A list read beside another one of the same length that does not matter. -/
theorem zipWith_left (f : β → δ) (hlength : xs.length = ys.length) :
    List.zipWith (fun x _ => f x) xs ys = xs.map f := by
  rw [List.zipWith_comm]
  exact Encoding.zipWith_right f hlength.symm

/-- What holds of related elements side by side holds of what is made of them. -/
theorem forall_mem_zipWith {R : β → γ → Prop} {P : δ → Prop} {f : β → γ → δ}
    (h : List.Forall₂ R xs ys) (hf : ∀ x y, R x y → P (f x y)) : ∀ z ∈ List.zipWith f xs ys, P z := by
  induction h with
  | nil => simp
  | cons hxy _ ih => exact List.forall_mem_cons.mpr ⟨hf _ _ hxy, ih⟩

end

/-! ### The layout of a choice -/

section
variable {α : Type} {circles : List (Circle α)} {labels : List (List (LabelCandidate α))}

/-- The names of the organizations without a position, if a test tells which these are. -/
theorem Layout.unplaced_eq_of_forall {l : Layout α} (test : Organization → Bool)
    (h : ∀ p ∈ l.organizations, p.position.isNone = test p.organization) :
    l.unplaced
      = ((l.organizations.map PlacedOrganization.organization).filter test).map Organization.name := by
  rw [unplaced, List.filter_congr h, List.filter_map, List.map_map]
  rfl

/-- The label of a circle with its text. -/
def PlacedCircle.text? (p : PlacedCircle α) : Option (String × LabelCandidate α) :=
  p.label.map (p.circle.name, ·)

/-- Candidates are named by position; with a list for each circle they are named circle by circle. -/
theorem named_eq_zipWith (hlabels : labels.length = circles.length) :
    Encoding.named circles labels
      = List.zipWith (fun c candidates => candidates.map (c.name, ·)) circles labels := by
  refine List.ext_getElem (by simp [Encoding.named, hlabels]) fun i hi hi' => ?_
  have hcircle : i < circles.length := by simp at hi'; omega
  simp [Encoding.named, hcircle]

/-- The labels that are picked with their texts are those of the circles with their labels. -/
theorem picks_named {ks : List (Option Nat)} (hlabels : labels.length = circles.length) :
    picks (Encoding.named circles labels) ks
      = (List.zipWith PlacedCircle.mk circles (picks labels ks)).map PlacedCircle.text? := by
  rw [named_eq_zipWith hlabels]
  induction circles generalizing labels ks with
  | nil => simp [picks]
  | cons c cs ih =>
    obtain ⟨xs, xss, rfl⟩ := List.exists_cons_of_length_eq_add_one hlabels
    cases ks with
    | nil => simp [picks]
    | cons k ks =>
      have htext : (k.bind fun k => (xs.map (c.name, ·))[k]?) = (k.bind (xs[·]?)).map (c.name, ·) := by
        cases k <;> simp
      exact congrArg₂ List.cons htext (ih (Nat.succ.inj hlabels))

end

section
variable {α : Type} [Scalar α] {rules : Rules α} {circles : List (Circle α)}
  {dots : List (List (DotCandidate α))} {organizations : List Organization} {c : Choice}

/-- The dot of the organization is at one of its candidates, if it has any. -/
def PlacedOrganization.AtCandidate (rules : Rules α) (circles : List (Circle α))
    (p : PlacedOrganization α) : Prop :=
  ∃ found pick, dotCandidates rules circles p.organization = some found ∧ Picked found pick ∧
    p.position = pick.map DotCandidate.position

/-- The label of the circle is at one of its candidates, if it has any. -/
def PlacedCircle.AtCandidate (rules : Rules α) (p : PlacedCircle α) : Prop :=
  Picked (labelCandidates rules p.circle) p.label

/-- The dots of two organizations are not too close, whichever is named first. -/
def PlacedOrganization.ClearOf (rules : Rules α) (p q : PlacedOrganization α) : Prop :=
  ∀ a ∈ p.position, ∀ b ∈ q.position,
    tooClose rules.minOrgSeparation a.x a.y b.x b.y = false ∧
      tooClose rules.minOrgSeparation b.x b.y a.x a.y = false

/-- The labels of two circles do not overlap, whichever is named first. -/
def PlacedCircle.ClearOf (rules : Rules α) (p q : PlacedCircle α) : Prop :=
  ∀ a ∈ p.label, ∀ b ∈ q.label,
    labelsOverlap rules p.circle.name a.x a.y q.circle.name b.x b.y = false ∧
      labelsOverlap rules q.circle.name b.x b.y p.circle.name a.x a.y = false

/-- A layout in which every organization that has candidates is at one of them, and so is every label,
and no two dots and no two labels overlap. -/
structure Layout.WellPlaced (rules : Rules α) (circles : List (Circle α))
    (organizations : List Organization) (l : Layout α) : Prop where
  circles_eq : l.circles.map PlacedCircle.circle = circles
  organizations_eq : l.organizations.map PlacedOrganization.organization = organizations
  placed : ∀ p ∈ l.organizations, ∀ found, dotCandidates rules circles p.organization = some found →
    found ≠ [] → ∃ dot ∈ found, p.position = some dot.position ∧
      regionScore? rules p.organization.categories circles dot.x dot.y = some dot.score ∧
      InRegion rules p.organization.categories circles dot.x dot.y
  unplaced_eq : l.unplaced
    = (organizations.filter fun o => (dotCandidates rules circles o).any List.isEmpty).map
        Organization.name
  dots_apart : l.organizations.Pairwise (PlacedOrganization.ClearOf rules)
  labelled : 0 < rules.labelDirections →
    ∀ p ∈ l.circles, ∃ anchor ∈ labelCandidates rules p.circle, p.label = some anchor
  labels_apart : l.circles.Pairwise (PlacedCircle.ClearOf rules)

/-- With a direction to try there is a place for a label. -/
theorem labelCandidates_ne_nil (hdirections : 0 < rules.labelDirections) (c : Circle α) :
    labelCandidates rules c ≠ [] := by
  have hpos : rules.labelDirections.toNat ≠ 0 := by omega
  simpa [labelCandidates] using hpos

/-- An organization that is put where it can go is left out exactly if it can go nowhere. -/
theorem PlacedOrganization.AtCandidate.isNone_eq {p : PlacedOrganization α}
    (h : p.AtCandidate rules circles) :
    p.position.isNone = (dotCandidates rules circles p.organization).any List.isEmpty := by
  obtain ⟨found, pick, hfound, hpicked, hposition⟩ := h
  rw [hposition, Option.isNone_map, hpicked.isNone_eq, hfound]
  rfl

section
variable {labels : List (List (LabelCandidate α))}

/-- A feasible choice has a position or none for each organization. -/
theorem Choice.length_positions (h : c.Feasible rules circles dots labels)
    (hlength : organizations.length = dots.length) :
    organizations.length = ((picks dots c.dots).map (Option.map DotCandidate.position)).length := by
  rw [List.length_map, Encoding.length_picks h.dots_fit, hlength]

/-- The positions in the layout of a choice are those of the candidates it picks. -/
theorem Choice.map_position_layout (h : c.Feasible rules circles dots labels)
    (hlength : organizations.length = dots.length) :
    (c.layout organizations circles dots labels).organizations.map PlacedOrganization.position
      = (picks dots c.dots).map (Option.map DotCandidate.position) := by
  rw [layout, List.map_zipWith,
    Encoding.zipWith_right (fun position => position) (length_positions h hlength), List.map_id']

/-- The layout of a choice has the organizations in order. -/
theorem Choice.map_organization_layout (h : c.Feasible rules circles dots labels)
    (hlength : organizations.length = dots.length) :
    (c.layout organizations circles dots labels).organizations.map PlacedOrganization.organization
      = organizations := by
  rw [layout, List.map_zipWith, zipWith_left (fun o => o) (length_positions h hlength), List.map_id']

/-- In the layout of a feasible choice every dot is at a candidate. -/
theorem Choice.dot_atCandidate (h : c.Feasible rules circles dots labels)
    (hdots : allDotCandidates rules circles organizations = some dots) :
    ∀ p ∈ (c.layout organizations circles dots labels).organizations, p.AtCandidate rules circles := by
  have hpicked : List.Forall₂
      (fun found? position => ∃ found pick, found? = some found ∧ Picked found pick ∧
        position = pick.map DotCandidate.position)
      (dots.map some) ((picks dots c.dots).map (Option.map DotCandidate.position)) := by
    rw [List.forall₂_map_left_iff, List.forall₂_map_right_iff]
    exact (forall₂_picked_picks h.dots_fit).imp fun found pick hpick => ⟨found, pick, rfl, hpick, rfl⟩
  -- The lists of candidates are those found for the organizations, in order.
  rw [← mapM_eq_some_iff.mp hdots, List.forall₂_map_left_iff] at hpicked
  exact forall_mem_zipWith hpicked fun o position hposition => hposition

/-- In the layout of a feasible choice no two dots are too close. -/
theorem Choice.dots_clear [SymmetricDistance α] (h : c.Feasible rules circles dots labels)
    (hlength : organizations.length = dots.length) :
    (c.layout organizations circles dots labels).organizations.Pairwise
      (PlacedOrganization.ClearOf rules) := by
  have hpairwise : ((picks dots c.dots).map (Option.map DotCandidate.position)).Pairwise
      fun s t => ∀ a ∈ s, ∀ b ∈ t, tooClose rules.minOrgSeparation a.x a.y b.x b.y = false ∧
        tooClose rules.minOrgSeparation b.x b.y a.x a.y = false := by
    rw [List.pairwise_map]
    refine (List.pairwise_map.mp h.dots_apart).imp fun {first second} hapart a ha b hb => ?_
    obtain ⟨x, hx, rfl⟩ := Option.map_eq_some_iff.mp ha
    obtain ⟨y, hy, rfl⟩ := Option.map_eq_some_iff.mp hb
    have hclear := hapart x (Option.mem_toList.mpr hx) y (Option.mem_toList.mpr hy)
    exact ⟨hclear, (tooClose_comm _ _ _ _ _).trans hclear⟩
  rw [← map_position_layout h hlength, List.pairwise_map] at hpairwise
  exact hpairwise

end

section
variable (organizations)

/-- It has the circles in order, too. -/
theorem Choice.map_circle_layout
    (h : c.Feasible rules circles dots (circles.map (labelCandidates rules))) :
    (c.layout organizations circles dots (circles.map (labelCandidates rules))).circles.map
      PlacedCircle.circle = circles := by
  have hlength : circles.length = (picks (circles.map (labelCandidates rules)) c.labels).length := by
    rw [Encoding.length_picks h.labels_fit, List.length_map]
  rw [layout, List.map_zipWith, zipWith_left (fun c => c) hlength, List.map_id']

/-- In the layout of a feasible choice every label is at a candidate. -/
theorem Choice.label_atCandidate
    (h : c.Feasible rules circles dots (circles.map (labelCandidates rules))) :
    ∀ p ∈ (c.layout organizations circles dots (circles.map (labelCandidates rules))).circles,
      p.AtCandidate rules := by
  have hpicked := forall₂_picked_picks h.labels_fit
  rw [List.forall₂_map_left_iff] at hpicked
  exact forall_mem_zipWith hpicked fun c pick hpick => hpick

/-- In the layout of a feasible choice no two labels overlap. -/
theorem Choice.labels_clear
    (h : c.Feasible rules circles dots (circles.map (labelCandidates rules))) :
    (c.layout organizations circles dots (circles.map (labelCandidates rules))).circles.Pairwise
      (PlacedCircle.ClearOf rules) := by
  have hapart := h.labels_apart
  rw [picks_named (List.length_map _), Encoding.Apart, List.pairwise_map, List.pairwise_map] at hapart
  refine hapart.imp fun {p q} hapart a ha b hb => ?_
  have hclear := hapart (p.circle.name, a) (Option.mem_toList.mpr (Option.mem_map_of_mem _ ha))
    (q.circle.name, b) (Option.mem_toList.mpr (Option.mem_map_of_mem _ hb))
  exact ⟨hclear, (labelsOverlap_comm _ _ _ _ _ _ _).trans hclear⟩

end

/-- The layout of a feasible choice is well placed. -/
theorem Choice.wellPlaced_layout [SymmetricDistance α] [OrderedScalar α]
    (h : c.Feasible rules circles dots (circles.map (labelCandidates rules)))
    (hdots : allDotCandidates rules circles organizations = some dots)
    (statistics : Option Statistics) :
    Layout.WellPlaced rules circles organizations
      { c.layout organizations circles dots (circles.map (labelCandidates rules)) with statistics } := by
  have hlength := (allDotCandidates_eq_some_iff.mp hdots).length_eq
  have horganizations := map_organization_layout h hlength
  have hplaced := dot_atCandidate h hdots
  refine ⟨map_circle_layout organizations h, horganizations, ?_, ?_, dots_clear h hlength, ?_,
    labels_clear organizations h⟩
  -- A dot is one of its candidates, each of which was checked against every circle when it was found.
  · intro p hp found hfound hne
    obtain ⟨found', pick, hfound', hpick, hposition⟩ := hplaced p hp
    obtain rfl : found' = found := Option.some.inj (hfound'.symm.trans hfound)
    obtain ⟨dot, hdot, rfl⟩ := hpick.exists_mem hne
    have hscore := regionScore?_of_mem_dotCandidates hfound hdot
    exact ⟨dot, hdot, hposition, hscore, inRegion_of_regionScore? hscore⟩
  · have hunplaced := Layout.unplaced_eq_of_forall
      (fun o => (dotCandidates rules circles o).any List.isEmpty) fun p hp => (hplaced p hp).isNone_eq
    rw [horganizations] at hunplaced
    exact hunplaced
  · intro hdirections p hp
    exact (label_atCandidate organizations h p hp).exists_mem
      (labelCandidates_ne_nil hdirections p.circle)

/-- So has the fallback the organizations. -/
theorem map_organization_fallback (rules : Rules α) (organizations : List Organization)
    (circles : List (Circle α)) :
    (fallback rules organizations circles).organizations.map PlacedOrganization.organization
      = organizations := by
  rw [fallback, List.map_map]
  exact List.map_id organizations

/-- And so has it the circles. -/
theorem map_circle_fallback (rules : Rules α) (organizations : List Organization)
    (circles : List (Circle α)) :
    (fallback rules organizations circles).circles.map PlacedCircle.circle = circles := by
  rw [fallback, List.map_map]
  exact List.map_id circles

/-! ### The layout of a document -/

/-- If the scans end, there is a layout. Found by deciding, it is well placed. The fallback is used
exactly if no choice of candidates is feasible. -/
theorem optimize_guarantee [SymmetricDistance α] [OrderedScalar α] (rules : Rules α) (d : Document α)
    (width height : Option α) (elapsed : Float) (hends : d.ScansEnd rules width height) :
    let circles := d.fixedCircles rules width height
    ∃ dots l, allDotCandidates rules circles d.organizations = some dots ∧
      optimize rules d width height elapsed = .ok l ∧
      (l.method = .sat → l.WellPlaced rules circles d.organizations) ∧
      (l.method = .fallback ↔
        ∀ c : Choice, ¬ c.Feasible rules circles dots (circles.map (labelCandidates rules))) ∧
      (l.method = .fallback →
        l = { fallback rules d.organizations circles with statistics := l.statistics }) := by
  intro circles
  obtain ⟨dots, hdots⟩ := Option.isSome_iff_exists.mp hends
  obtain ⟨statistics, ⟨c, hleast, hlayout⟩ | ⟨hnone, hlayout⟩⟩ := optimize_cases elapsed hdots
  -- A layout of a feasible choice is never called a fallback, and the other way round.
  · refine ⟨dots, _, hdots, hlayout, fun _ => Choice.wellPlaced_layout hleast.feasible hdots _, ?_, ?_⟩
    · constructor
      · intro hmethod
        exact absurd hmethod (by simp [Choice.layout])
      · intro hnone
        exact absurd hleast.feasible (hnone c)
    · intro hmethod
      exact absurd hmethod (by simp [Choice.layout])
  · refine ⟨dots, _, hdots, hlayout, ?_, ⟨fun _ => hnone, fun _ => rfl⟩, fun _ => rfl⟩
    intro hmethod
    exact absurd hmethod (by simp [fallback])

end

/-- Two circles that overlap, an organization in the one, one in both, and one in a category that is not
there. -/
theorem optimize_guarantee_two_circles :
    let d : Document Float :=
      { categories :=
          [⟨"A", "red", some 200, some 200, some 100⟩, ⟨"B", "blue", some 320, some 200, some 100⟩]
        organizations :=
          [⟨"a", ["A"], none, none⟩, ⟨"b", ["A", "B"], none, none⟩, ⟨"c", ["C"], none, none⟩] }
    let rules := Rules.standard
    d.ScansEnd rules none none ∧
      let circles := d.fixedCircles rules none none
      ∃ dots l, allDotCandidates rules circles d.organizations = some dots ∧
        optimize rules d none none 0 = .ok l ∧
        (l.method = .sat → l.WellPlaced rules circles d.organizations) ∧
        (l.method = .fallback ↔
          ∀ c : Choice, ¬ c.Feasible rules circles dots (circles.map (labelCandidates rules))) ∧
        (l.method = .fallback →
          l = { fallback rules d.organizations circles with statistics := l.statistics }) := by
  intro d rules
  have hends : d.ScansEnd rules none none := by
    show (allDotCandidates rules (d.fixedCircles rules none none) d.organizations).isSome = true
    decide +kernel
  exact ⟨hends, optimize_guarantee rules d none none 0 hends⟩

end VennDiagram
