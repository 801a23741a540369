import VennDiagram.Proofs.Number.Steps
import VennDiagram.Proofs.Placement.Fallback
import VennDiagram.Proofs.Rules.Overriding

/-!
# `VennDiagram.Proofs.Placement.Ending`: when the scans of a document end

The loops over the grid are left if the step takes them past the end of the box. Loading rules makes sure
that the step is finite (`Rules.isFinite_getReal_of_ofJson`), and checking a document makes sure that
radii are not negative, but neither looks at the sign of the step or at the size of coordinates.

For a finite step, a scan of the library is the loop (`Document.scansEnd_iff`), so it does not matter
which of the two is spoken of. Two things decide whether the loops are left:

* The step. With a step of zero or less, a loop that is entered is never left, and the loops of an
  organization with a circle are entered (`sweepEnds_iff_step_pos`).
* The size of the coordinates. A positive step may get lost in rounding, but not as long as the edges of
  all circles are within `2 ^ 52` steps of zero (`Circle.InReach`).

So a document with circles in reach is swept for every organization if and only if the step is positive,
or no organization lists a category (`Document.sweeps_end_iff_step_pos`). A step of zero is loaded all the
same, and the sweep of a document without defects does not end (`Document.sweep_endless_step_zero`).
-/

set_option autoImplicit false

namespace VennDiagram

/-! ### Scans and loops -/

section
variable {α : Type} [Scalar α]

/-- The two loops that look for the dots of an organization are left. Without a circle of its own they
are not entered. -/
def SweepEnds (rules : Rules α) (circles : List (Circle α)) (members : List String) : Prop :=
  ∀ own rest, ownCircles members circles = own :: rest →
    ∃ points, Sweep rules.orgGridStep
      (Scalar.least (own.x - own.r) (rest.map fun c => c.x - c.r))
      (Scalar.greatest (own.x + own.r) (rest.map fun c => c.x + c.r))
      (Scalar.least (own.y - own.r) (rest.map fun c => c.y - c.r))
      (Scalar.greatest (own.y + own.r) (rest.map fun c => c.y + c.r)) points

variable [LinearScalar α] [AmpleBound α] {rules : Rules α}

/-- The candidates of an organization are found if and only if the loops that look for them are left. -/
theorem isSome_eligibleDots_iff (hsteady : Steady rules.orgGridStep) (circles : List (Circle α))
    (members : List String) :
    (eligibleDots rules circles members).isSome = true ↔ SweepEnds rules circles members := by
  rw [eligibleDots, SweepEnds]
  cases ownCircles members circles with
  | nil => exact iff_of_true rfl fun own rest h => absurd h (by simp)
  | cons own rest =>
    simp only [Option.isSome_map, Option.isSome_iff_exists, gridPoints_eq_some_iff hsteady]
    constructor
    · rintro h own' rest' heq
      obtain ⟨rfl, rfl⟩ := List.cons.inj heq
      exact h
    · intro h
      exact h own rest rfl

/-- All scans of a document end if and only if the loops of every organization are left. -/
theorem Document.scansEnd_iff (hsteady : Steady rules.orgGridStep) (d : Document α)
    (width height : Option α) :
    d.ScansEnd rules width height ↔
      ∀ o ∈ d.organizations, SweepEnds rules (d.fixedCircles rules width height) o.categories := by
  simp only [← isSome_eligibleDots_iff hsteady]
  have hdots : ∀ o : Organization,
      (dotCandidates rules (d.fixedCircles rules width height) o).isSome
        = (eligibleDots rules (d.fixedCircles rules width height) o.categories).isSome := fun o =>
    Option.isSome_map
  constructor
  · intro h o ho
    obtain ⟨dots, hdots'⟩ := Option.isSome_iff_exists.mp h
    rw [allDotCandidates, mapM_eq_some_iff] at hdots'
    obtain ⟨found, -, hfound⟩ := List.mem_map.mp (hdots' ▸ List.mem_map_of_mem ho)
    rw [← hdots, ← hfound]
    rfl
  · intro h
    obtain ⟨dots, heq⟩ := exists_map_some_eq fun o ho => (hdots o).trans (h o ho)
    rw [ScansEnd, allDotCandidates, mapM_eq_some_iff.mpr heq.symm]
    rfl

end

/-! ### Circles in reach -/

section
variable {α : Type} [Scalar α] [LinearScalar α]

/-- The extremes of the edges of some circles are edges, and in order if those of one circle are. -/
theorem extremes_of_forall {P : α → Prop} (hnumber : ∀ x, P x → x ≤ x) {f g : Circle α → α}
    {own : Circle α} {rest : List (Circle α)} (hf : ∀ c ∈ own :: rest, P (f c))
    (hg : ∀ c ∈ own :: rest, P (g c)) (hle : f own ≤ g own) :
    P (Scalar.least (f own) (rest.map f)) ∧ P (Scalar.greatest (g own) (rest.map g)) ∧
      Scalar.least (f own) (rest.map f) ≤ Scalar.greatest (g own) (rest.map g) := by
  have hleasts : ∀ x ∈ f own :: rest.map f, P x := fun x hx => by
    obtain ⟨c, hc, rfl⟩ := List.mem_map.mp (List.map_cons ▸ hx)
    exact hf c hc
  have hgreatests : ∀ x ∈ g own :: rest.map g, P x := fun x hx => by
    obtain ⟨c, hc, rfl⟩ := List.mem_map.mp (List.map_cons ▸ hx)
    exact hg c hc
  obtain ⟨hmem, hleast⟩ := least_mem_and_le fun x hx => hnumber x (hleasts x hx)
  obtain ⟨hmem', hgreatest⟩ := greatest_mem_and_le fun x hx => hnumber x (hgreatests x hx)
  have houter := LinearScalar.le_trans (hleast _ List.mem_cons_self) hle
  exact ⟨hleasts _ hmem, hgreatests _ hmem',
    LinearScalar.le_trans houter (hgreatest _ List.mem_cons_self)⟩

end

/-- The edges of a circle to the left, right, top and bottom. -/
def Circle.edges (c : Circle Float) : List Float := [c.x - c.r, c.x + c.r, c.y - c.r, c.y + c.r]

/-- The circle is one of finite doubles, also where its edges are, and no edge is more than `2 ^ 52`
steps away from zero, if the step is positive. -/
structure Circle.InReach (step : Float) (c : Circle Float) : Prop where
  x : c.x.isFinite = true
  y : c.y.isFinite = true
  r : c.r.isFinite = true
  nonneg : 0 ≤ c.r
  edges : ∀ e ∈ c.edges, e.isFinite = true ∧ (0 < step → Binary64.InReach step e)

instance (step : Float) (c : Circle Float) : Decidable (c.InReach step) :=
  decidable_of_iff
    (c.x.isFinite = true ∧ c.y.isFinite = true ∧ c.r.isFinite = true ∧ 0 ≤ c.r ∧
      ∀ e ∈ c.edges, e.isFinite = true ∧ (0 < step → Binary64.InReach step e))
    ⟨fun ⟨hx, hy, hr, hnonneg, hedges⟩ => ⟨hx, hy, hr, hnonneg, hedges⟩,
      fun h => ⟨h.x, h.y, h.r, h.nonneg, h.edges⟩⟩

open Binary64 in
/-- The loops of an organization that has circles in reach are left if and only if the step is
positive. -/
theorem sweepEnds_iff_step_pos {rules : Rules Float} {circles : List (Circle Float)}
    {members : List String} (hstep : rules.orgGridStep.isFinite = true)
    (hown : ownCircles members circles ≠ [])
    (hreach : ∀ c ∈ ownCircles members circles, c.InReach rules.orgGridStep) :
    SweepEnds rules circles members ↔ 0 < rules.orgGridStep := by
  obtain ⟨own, rest, hlist⟩ := List.exists_cons_of_ne_nil hown
  rw [hlist] at hreach
  obtain ⟨hx, hy, hr, hnonneg, -⟩ := hreach own List.mem_cons_self
  have hnumber : ∀ e : Float, e.isFinite = true ∧ (0 < rules.orgGridStep → InReach rules.orgGridStep e) →
      e ≤ e := fun e he => le_self_of_isFinite he.1
  have hedge : ∀ f : Circle Float → Float, (∀ c, f c ∈ c.edges) → ∀ c ∈ own :: rest,
      (f c).isFinite = true ∧ (0 < rules.orgGridStep → InReach rules.orgGridStep (f c)) :=
    fun f hf c hc => (hreach c hc).edges _ (hf c)
  obtain ⟨hleft, hright, hwidth⟩ := extremes_of_forall hnumber
    (hedge (fun c => c.x - c.r) fun c => by simp [Circle.edges])
    (hedge (fun c => c.x + c.r) fun c => by simp [Circle.edges]) (sub_le_add hx hr hnonneg)
  obtain ⟨htop, hbottom, -⟩ := extremes_of_forall hnumber
    (hedge (fun c => c.y - c.r) fun c => by simp [Circle.edges])
    (hedge (fun c => c.y + c.r) fun c => by simp [Circle.edges]) (sub_le_add hy hr hnonneg)
  constructor
  · -- The columns are entered, because no radius is negative, and then never left.
    intro h
    by_contra hpos
    obtain ⟨⟨n, hpassed⟩, -⟩ := exists_sweep_iff.mp (h own rest hlist) hwidth
    exact not_passedAfter hstep hpos hleft.1 hwidth n hpassed
  · intro hpos own' rest' hlist'
    obtain ⟨rfl, rfl⟩ := List.cons.inj (hlist.symm.trans hlist')
    exact exists_sweep_iff.mpr fun _ => ⟨exists_passedAfter hstep hpos (hleft.2 hpos) (hright.2 hpos),
      exists_passedAfter hstep hpos (htop.2 hpos) (hbottom.2 hpos)⟩

/-! ### Documents -/

namespace Document

/-- Nothing is wrong with the document, and its circles are in reach of the step. Then its scans are the
loops, and these are left for every organization if and only if the step is positive, or nothing is
looked for. -/
theorem sweeps_end_iff_step_pos {base rules : Rules Float} {v : Json} {d : Document Float}
    {width height : Option Float} (hrules : Rules.ofJson base v = .ok rules)
    (hbase : ∀ k, (base.getReal k).isFinite = true) (hvalid : d.defects = [])
    (hreach : ∀ c ∈ d.fixedCircles rules width height, c.InReach rules.orgGridStep) :
    (d.ScansEnd rules width height ↔
      ∀ o ∈ d.organizations, SweepEnds rules (d.fixedCircles rules width height) o.categories) ∧
    ((∀ o ∈ d.organizations, SweepEnds rules (d.fixedCircles rules width height) o.categories) ↔
      0 < rules.orgGridStep ∨ ∀ o ∈ d.organizations, o.categories = []) := by
  have hstep : rules.orgGridStep.isFinite = true :=
    Rules.isFinite_getReal_of_ofJson hrules hbase .orgGridStep
  have hends : ∀ o ∈ d.organizations, o.categories ≠ [] →
      (SweepEnds rules (d.fixedCircles rules width height) o.categories ↔ 0 < rules.orgGridStep) := by
    intro o ho hlists
    have hown := ownCircles_circles_ne_nil hvalid rules (rules.canvasCenter width height) ho hlists
    exact sweepEnds_iff_step_pos hstep hown fun c hc => hreach c (List.mem_of_mem_filter hc)
  refine ⟨scansEnd_iff (Binary64.steady_of_isFinite hstep) d width height, ?_⟩
  constructor
  · intro h
    by_cases hpos : 0 < rules.orgGridStep
    · exact Or.inl hpos
    · refine Or.inr fun o ho => ?_
      by_contra hlists
      exact hpos ((hends o ho hlists).mp (h o ho))
  · rintro h o ho
    by_cases hlists : o.categories = []
    · -- Without categories there are no circles, and the loops are not entered.
      intro own rest hown
      simp [hlists, ownCircles] at hown
    · exact (hends o ho hlists).mpr (h.resolve_right fun hnone => hlists (hnone o ho))

/-- Two circles and a step of 10, which overrides that of the rules. -/
theorem sweeps_end_iff_step_pos_ten :
    let v : Json := .obj [("org_grid_step", .int 10)]
    let rules : Rules Float := { Rules.standard with orgGridStep := 10 }
    let d : Document Float :=
      { categories :=
          [⟨"A", "red", some 200, some 200, some 100⟩, ⟨"B", "blue", some 320, some 200, some 100⟩]
        organizations := [⟨"a", ["A"], none, none⟩, ⟨"b", ["A", "B"], none, none⟩] }
    Rules.ofJson Rules.standard v = .ok rules ∧ (∀ k, (Rules.standard.getReal k).isFinite = true) ∧
      d.defects = [] ∧ (∀ c ∈ d.fixedCircles rules none none, c.InReach rules.orgGridStep) ∧
      (d.ScansEnd rules none none ↔
        ∀ o ∈ d.organizations, SweepEnds rules (d.fixedCircles rules none none) o.categories) ∧
      ((∀ o ∈ d.organizations, SweepEnds rules (d.fixedCircles rules none none) o.categories) ↔
        0 < rules.orgGridStep ∨ ∀ o ∈ d.organizations, o.categories = []) := by
  intro v rules d
  have hrules : Rules.ofJson Rules.standard v = .ok rules := rfl
  have hbase : ∀ k, (Rules.standard.getReal k).isFinite = true := by
    intro k
    cases k <;> decide +kernel
  have hvalid : d.defects = [] := by decide +kernel
  -- The scans are not run: both circles are seen to lie in reach.
  have hcircles : d.fixedCircles rules none none
      = [⟨0, "A", "red", 200, 200, 100⟩, ⟨1, "B", "blue", 320, 200, 100⟩] := by
    decide +kernel
  have hreach : ∀ c ∈ d.fixedCircles rules none none, c.InReach rules.orgGridStep := by
    rw [hcircles]
    decide +kernel
  exact ⟨hrules, hbase, hvalid, hreach, sweeps_end_iff_step_pos hrules hbase hvalid hreach⟩

/-- A step of zero is loaded, nothing is wrong with the document, and the loops of its organization are
never left. -/
theorem sweep_endless_step_zero :
    let rules : Rules Float := { Rules.standard with orgGridStep := 0 }
    let d : Document Float :=
      { categories := [⟨"A", "#888888", some 0, some 0, some 1⟩]
        organizations := [⟨"o", ["A"], none, none⟩] }
    Rules.ofJson Rules.standard (.obj [("org_grid_step", .int 0)]) = .ok rules ∧
      ofJson (.obj
        [ ("categories", .arr
            [.obj [("name", .str "A"), ("x", .int 0), ("y", .int 0), ("r", .int 1)]]),
          ("organizations", .arr [.obj [("name", .str "o"), ("categories", .arr [.str "A"])]]) ]) = .ok d ∧
      d.defects = [] ∧
      ∃ o ∈ d.organizations, ¬ SweepEnds rules (d.fixedCircles rules none none) o.categories := by
  intro rules d
  have hstep : rules.orgGridStep.isFinite = true := by decide +kernel
  refine ⟨rfl, rfl, by decide +kernel, _, List.mem_cons_self, ?_⟩
  -- The loops are left just if the candidates are found, and whether they are is decided.
  rw [← isSome_eligibleDots_iff (Binary64.steady_of_isFinite hstep)]
  decide +kernel

end Document

end VennDiagram
