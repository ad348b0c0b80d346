import ModuleRoutes.Definition.Normalize
import ModuleRoutes.Proofs.Refusal
import ModuleRoutes.Section.Layout

/-!
# The faults of normalized sections

Once names are tokens, what a section or the list of slots can still be refused for is its shape:
its slots, its actions and their conventions. No later check speaks of names, and none wraps the
fault of another one.
-/

namespace ModuleRoutes

/-- A fault in the shape of a definition rather than in one of its names. -/
def Fault.IsOfShape : Fault → Prop
  | .arity .. | .missingSection _ | .duplicateSection _ | .missingResourceName _
  | .duplicateAction .. | .convention .. | .routeCollision .. => True
  | _ => False

namespace Section

open Outcome

variable {part : Section}

theorem failsWithin_breach {α : Type} (action : String) (reason : Breach) :
    FailsWithin Fault.IsOfShape (part.breach action reason : Except Fault α) :=
  failsWithin_error trivial

theorem failsWithin_expectArity : FailsWithin Fault.IsOfShape part.expectArity := by
  unfold expectArity
  split
  · exact failsWithin_ok ()
  · exact failsWithin_error trivial

theorem failsWithin_expectUniqueNames : FailsWithin Fault.IsOfShape part.expectUniqueNames := by
  unfold expectUniqueNames
  split
  · exact failsWithin_error trivial
  · exact failsWithin_ok ()

theorem failsWithin_rejectItem (action : Action) :
    FailsWithin Fault.IsOfShape (part.rejectItem action) := by
  unfold rejectItem
  split
  · exact failsWithin_breach _ _
  · exact failsWithin_ok ()

theorem failsWithin_dashboardCheck (action : Action) :
    FailsWithin Fault.IsOfShape (part.dashboardCheck action) := by
  unfold dashboardCheck
  split
  · exact failsWithin_ok ()
  · exact failsWithin_breach _ _

theorem failsWithin_expectShape (verb : Verb) (action : Action) :
    FailsWithin Fault.IsOfShape (part.expectShape verb action) := by
  unfold expectShape
  split
  · exact failsWithin_breach _ _
  · split
    · exact failsWithin_ok ()
    · split <;> exact failsWithin_breach _ _

theorem failsWithin_expectPrimaryVerbs : FailsWithin Fault.IsOfShape part.expectPrimaryVerbs := by
  unfold expectPrimaryVerbs
  split
  · split
    · exact failsWithin_breach _ _
    · exact failsWithin_ok ()
  · exact failsWithin_ok ()

theorem failsWithin_anchoredRoutes {moduleId root : String} {check : Action → Except Fault Unit}
    (checks : ∀ action, FailsWithin Fault.IsOfShape (check action)) :
    FailsWithin Fault.IsOfShape (part.anchoredRoutes moduleId root check) := by
  refine failsWithin_expectArity.bind fun _ => failsWithin_expectUniqueNames.bind fun _ => ?_
  refine FailsWithin.bind (FailsWithin.forM fun action => ?_) fun _ => failsWithin_ok _
  exact (checks action).bind fun _ => failsWithin_rejectItem action

theorem failsWithin_settingsRoutes {moduleId : String} :
    FailsWithin Fault.IsOfShape (part.settingsRoutes moduleId) := by
  refine failsWithin_expectArity.bind fun _ => failsWithin_expectUniqueNames.bind fun _ => ?_
  have after : FailsWithin Fault.IsOfShape (do
      part.actions.forM part.rejectItem
      pure (part.actions.map fun action => part.route moduleId action "/settings")) :=
    (FailsWithin.forM failsWithin_rejectItem).bind fun _ => failsWithin_ok _
  split
  · exact (failsWithin_breach _ _).bind fun _ => after
  · exact after

theorem failsWithin_utilityRoutes {moduleId : String} :
    FailsWithin Fault.IsOfShape (part.utilityRoutes moduleId) := by
  refine failsWithin_expectArity.bind fun _ => failsWithin_expectUniqueNames.bind fun _ => ?_
  exact (FailsWithin.forM failsWithin_rejectItem).bind fun _ => failsWithin_ok _

theorem failsWithin_verbRoutes {moduleId base : String} :
    FailsWithin Fault.IsOfShape (part.verbRoutes moduleId base) :=
  FailsWithin.mapM fun pair =>
    (failsWithin_expectShape pair.1 pair.2).bind fun _ => failsWithin_ok _

theorem failsWithin_resourceRoutes {moduleId : String} :
    FailsWithin Fault.IsOfShape (part.resourceRoutes moduleId) := by
  refine failsWithin_expectArity.bind fun _ => failsWithin_expectUniqueNames.bind fun _ => ?_
  have below : ∀ noun : String, FailsWithin Fault.IsOfShape (do
      part.expectPrimaryVerbs
      let verbs ← part.verbRoutes moduleId ("/" ++ noun)
      pure (verbs ++ part.customRoutes moduleId ("/" ++ noun))) := fun _ =>
    failsWithin_expectPrimaryVerbs.bind fun _ => failsWithin_verbRoutes.bind fun _ =>
      failsWithin_ok _
  cases part.resourceName with
  | none => exact failsWithin_error trivial
  | some noun => exact below noun

/-- A section is refused its routes for its shape alone. -/
theorem failsWithin_routes {moduleId : String} :
    FailsWithin Fault.IsOfShape (part.routes moduleId) := by
  unfold routes
  split
  · exact failsWithin_breach _ _
  · split
    · exact failsWithin_anchoredRoutes failsWithin_dashboardCheck
    · exact failsWithin_resourceRoutes
    · exact failsWithin_anchoredRoutes fun _ => failsWithin_ok ()
    · exact failsWithin_settingsRoutes
    · exact failsWithin_utilityRoutes

end Section

namespace Definition

open Outcome

theorem failsWithin_checkSlot (seen : List Slot) (part : Section) :
    FailsWithin Fault.IsOfShape (checkSlot seen part) := by
  unfold checkSlot
  split
  · exact failsWithin_error trivial
  · split
    · exact failsWithin_error trivial
    · exact failsWithin_error trivial
    · exact failsWithin_ok ()

theorem failsWithin_checkSlots (seen : List Slot) (parts : List Section) :
    FailsWithin Fault.IsOfShape (checkSlots seen parts) := by
  induction parts generalizing seen with
  | nil => exact failsWithin_ok seen
  | cons part parts ih => exact (failsWithin_checkSlot seen part).bind fun _ => ih _

theorem failsWithin_validateSlots (definition : Definition) :
    FailsWithin Fault.IsOfShape definition.validateSlots := by
  refine (failsWithin_checkSlots [] definition.sections).bind fun seen => ?_
  split
  · exact failsWithin_error trivial
  · exact failsWithin_ok ()

end Definition

end ModuleRoutes
