import VennDiagram.Service.Endpoint

/-!
# `VennDiagram.Proofs.Service.Requests`: what a request can do

A request is an order if the framework takes it for a call of the handler of layouts, its dictionary is read
as a document, and this document has no defects. Only an order needs rules. It keeps the rules it is answered
with, and keeps nothing new if the rules cannot be loaded (`handle_of_order`). Every other request is answered
without a look at what is kept or at the files, and leaves what is kept as it was (`handle_of_not_order`).

All this is so in any framework. Which requests are orders is for the framework to say.
-/

set_option autoImplicit false

namespace VennDiagram.Service

/-- The rules that are in effect when none are kept. -/
def Environment.rules [Json.Limits] (env : Environment) :
    Except (Json.FileError Rules.OverrideError) (Rules Float) :=
  rulesInEffect env .initial

/-- What the request orders, if the framework calls the handler of layouts for it with a dictionary that is
read as a document without defects. -/
def Framework.order? {ρ : Type} (fw : Framework ρ) (r : ρ) : Option Order :=
  match fw.resolve r with
  | .ok (.layout req width height) =>
    match Document.ofJson (fw.dump req) with
    | .ok d => if d.defects = [] then some { width, height, document := d } else none
    | .error _ => none
  | _ => none

variable {ρ : Type} {fw : Framework ρ} {env : Environment} {r : ρ} {o : Order} {rules : Rules Float}
  {req : LayoutRequest} {width height : Option Float} {d : Document Float}

/-- A call for a document without defects is an order for it. -/
theorem order?_of_layout (hcall : fw.resolve r = .ok (.layout req width height))
    (hread : Document.ofJson (fw.dump req) = .ok d) (hdefects : d.defects = []) :
    fw.order? r = some ⟨width, height, d⟩ := by
  simp only [Framework.order?, hcall, hread, hdefects, if_true]

/-- Whatever is ordered was called for. -/
theorem exists_call_of_order? (h : fw.order? r = some o) :
    ∃ req, fw.resolve r = .ok (.layout req o.width o.height) ∧
      Document.ofJson (fw.dump req) = .ok o.document ∧ o.document.defects = [] := by
  rw [Framework.order?] at h
  split at h
  case h_1 req width height hcall =>
    split at h
    case h_1 d hread =>
      split at h
      case isTrue hdefects =>
        obtain rfl := Option.some.inj h
        exact ⟨req, hcall, hread, hdefects⟩
      case isFalse => exact nomatch h
    case h_2 => exact nomatch h
  case h_2 => exact nomatch h

variable [Json.Limits]

/-- Rules that were loaded stay in effect, whatever the file holds. -/
theorem rulesInEffect_kept (env : Environment) (rules : Rules Float) :
    rulesInEffect env ⟨some rules⟩ = .ok rules := by
  cases h : nonempty? env.rulesPath <;> rw [rulesInEffect]

/-- What a call leads to is answered. -/
theorem handle_of_layout (hcall : fw.resolve r = .ok (.layout req width height)) (env : Environment)
    (state : State) :
    fw.handle env state r =
      (fw.respond (layout env state (fw.dump req) width height).1,
        (layout env state (fw.dump req) width height).2) := by
  rw [Framework.handle, hcall]
  rfl

/-- An order is answered with the rules in effect, which are kept from then on. -/
theorem handle_of_order (h : fw.order? r = some o) (env : Environment) (state : State) :
    fw.handle env state r =
      match rulesInEffect env state with
      | .ok rules => (fw.respond (layOut env rules o), ⟨some rules⟩)
      | .error e => (fw.respond (refuseRules env e), state) := by
  obtain ⟨req, hcall, hread, hdefects⟩ := exists_call_of_order? h
  rw [handle_of_layout hcall, layout, hread]
  cases rulesInEffect env state <;> simp only [hdefects]

/-- An order that finds rules kept is laid out with them. -/
theorem handle_of_kept (h : fw.order? r = some o) (env : Environment) (rules : Rules Float) :
    fw.handle env ⟨some rules⟩ r = (fw.respond (layOut env rules o), ⟨some rules⟩) := by
  rw [handle_of_order h, rulesInEffect_kept]

/-- An order that finds nothing kept is laid out with the rules of its environment. -/
theorem handle_of_loads (h : fw.order? r = some o) (hrules : env.rules = .ok rules) :
    fw.handle env .initial r = (fw.respond (layOut env rules o), ⟨some rules⟩) := by
  rw [Environment.rules] at hrules
  rw [handle_of_order h, hrules]

/-- An order that finds nothing kept and cannot load rules is told why. -/
theorem handle_of_fails (h : fw.order? r = some o) {e : Json.FileError Rules.OverrideError}
    (hrules : env.rules = .error e) :
    fw.handle env .initial r = (fw.respond (refuseRules env e), .initial) := by
  rw [Environment.rules] at hrules
  rw [handle_of_order h, hrules]

/-- A document with defects is answered with their messages. -/
theorem handle_of_defects (hcall : fw.resolve r = .ok (.layout req width height))
    (hread : Document.ofJson (fw.dump req) = .ok d) (hdefects : d.defects ≠ []) (env : Environment)
    (state : State) : fw.handle env state r = (fw.respond (refuseDefects d.defects), state) := by
  rw [handle_of_layout hcall, layout, hread]
  cases h : d.defects with
  | nil => exact absurd h hdefects
  | cons defect defects => simp only [h]

/-- Whatever is kept and whatever the environment is like, a request that is not an order is answered in
the same way, and nothing new is kept. -/
theorem handle_of_not_order (h : fw.order? r = none) :
    ∃ answer, ∀ (env : Environment) (state : State), fw.handle env state r = (answer, state) := by
  cases hcall : fw.resolve r with
  | error answer =>
    refine ⟨answer, fun env state => ?_⟩
    rw [Framework.handle, hcall]
  | ok call =>
    cases call with
    | health =>
      refine ⟨fw.respond health, fun env state => ?_⟩
      rw [Framework.handle, hcall]
      rfl
    | layout req width height =>
      cases hread : Document.ofJson (fw.dump req) with
      | error e =>
        refine ⟨fw.respond (.crashed (.unread e)), fun env state => ?_⟩
        rw [handle_of_layout hcall, layout, hread]
      | ok d =>
        -- A request with a valid document would be an order.
        have hdefects : d.defects ≠ [] := fun hdefects =>
          nomatch h.symm.trans (order?_of_layout hcall hread hdefects)
        exact ⟨_, handle_of_defects hcall hread hdefects⟩

end VennDiagram.Service
