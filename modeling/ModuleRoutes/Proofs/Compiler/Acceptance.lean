import Mathlib.Data.List.Perm.Basic
import ModuleRoutes.Compiler
import ModuleRoutes.Proofs.Definition.Normalize
import ModuleRoutes.Proofs.Definition.Slots
import ModuleRoutes.Proofs.Section.Conventions

/-!
# Acceptance

A definition is compiled exactly when its names have tokens, its slots are filled, its normal form
keeps the conventions of each section, and no two actions of its normal form fall on one method and
path (`ModuleRoutes.Compiler.exists_compile_iff`). What it is compiled to is then the layout of the
normal form, slot by slot (`ModuleRoutes.Compiler.compile_eq_ok_iff`).
-/

namespace ModuleRoutes

namespace Section

/-- The paths and methods that the actions of a section fall on. -/
def endpoints (part : Section) : List (String × Method) :=
  part.actions.mapIdx fun index action => (part.pathAt index action, action.method)

variable {part : Section}

/-- Verbs first, the actions of a section are its actions as authored, reordered. -/
theorem tableOrder_perm (distinct : (part.actions.map Action.name).Nodup) :
    part.tableOrder.Perm part.actions := by
  unfold tableOrder
  split
  · -- Each verb finds at most one action, and the actions found are those named by verbs.
    have verbs : (Verb.all.filterMap part.actionFor?).Perm
        (part.actions.filter fun action => Verb.isVerb action.name) := by
      refine (List.perm_ext_iff_of_nodup ?_ (distinct.of_map _ |>.filter _)).mpr fun action => ?_
      · refine List.Nodup.filterMap (fun verb other action found otherFound => ?_) (by decide)
        have same : verb.text = other.text := by
          rw [← (actionFor?_spec found).2, (actionFor?_spec otherFound).2]
        revert same
        cases verb <;> cases other <;> decide
      · simp only [List.mem_filterMap, List.mem_filter, actionFor?_eq_some_iff distinct,
          Verb.isVerb, Option.isSome_iff_exists, Verb.ofText?_eq_some_iff]
        constructor
        · rintro ⟨verb, _, member, named⟩
          exact ⟨member, verb, named⟩
        · rintro ⟨member, verb, named⟩
          exact ⟨verb, verb.mem_all, member, named⟩
    exact (verbs.append_right _).trans (List.filter_append_perm _ _)
  · exact .refl _

theorem layout_endpoints_perm (moduleId : String)
    (distinct : (part.actions.map Action.name).Nodup) :
    ((part.layout moduleId).map Route.endpoint).Perm part.endpoints := by
  by_cases kind : part.kind.kind = .resource
  · have placed : part.endpoints =
        part.actions.map fun action => (part.resourcePath action, action.method) :=
      Places.mapIdx_eq_map fun index action => by rw [pathAt, kind]
    have order : part.tableOrder = Verb.all.filterMap part.actionFor? ++
        part.actions.filter fun action => !Verb.isVerb action.name := by
      rw [tableOrder, if_pos (by simp [Slot.isResource, kind])]
    rw [layout_of_resource kind, placed, List.map_map, ← order]
    exact (tableOrder_perm distinct).map _
  · rw [layout_of_not_resource kind, Places.map_mapIdx]
    exact .refl _

end Section

namespace Definition

/-- The routes of the section in a slot. -/
def blockOf (definition : Definition) (slot : Slot) : List Route :=
  match definition.findSection? slot with
  | some part => part.layout definition.moduleId
  | none => []

/-- The routes of a definition that keeps the conventions, in the order of the slots. -/
def layout (definition : Definition) : List Route := Slot.all.flatMap definition.blockOf

/-- The paths and methods that the actions of a definition fall on. -/
def endpoints (definition : Definition) : List (String × Method) :=
  definition.sections.flatMap Section.endpoints

variable {definition normal : Definition}

theorem slotsFilled_iff_of_normalize (normalized : definition.normalize = .ok normal) :
    normal.SlotsFilled ↔ definition.SlotsFilled := by
  obtain ⟨_, _, _, _, each, _, rfl⟩ := normalize_eq_ok_iff.mp normalized
  exact slotsFilled_congr (Section.slots_of_normalize each)

/-- What the routes of each section give, the routes of the definition give together. -/
theorem layout_map_perm (filled : normal.SlotsFilled) {α : Type} {read : Route → α}
    {expected : Section → List α} (each : ∀ part ∈ normal.sections,
      ((part.layout normal.moduleId).map read).Perm (expected part)) :
    (normal.layout.map read).Perm (normal.sections.flatMap expected) := by
  have bySlot : (normal.layout.map read).Perm
      ((Slot.all.filterMap normal.findSection?).flatMap expected) := by
    rw [layout, List.map_flatMap, List.filterMap_eq_flatMap_toList, List.flatMap_assoc]
    refine List.Perm.flatMap_left _ fun slot _ => ?_
    obtain ⟨part, found⟩ := filled.exists_findSection? slot
    simp only [blockOf, found, Option.toList_some, List.flatMap_singleton]
    exact each part (filled.findSection?_eq_some_iff.mp found).1
  exact bySlot.trans (filled.perm_sections.flatMap_right _)

theorem endpoints_perm (filled : normal.SlotsFilled)
    (keeps : ∀ part ∈ normal.sections, part.Conventional) :
    (normal.layout.map Route.endpoint).Perm normal.endpoints :=
  layout_map_perm filled fun part member =>
    Section.layout_endpoints_perm _ (keeps part member).distinctNames

end Definition

namespace Compiler

open Definition

variable {compiler : Compiler} {definition normal : Definition}

/-- The routes of filled slots exist when every section keeps its conventions. -/
theorem slotRoutes_eq_ok_iff (filled : normal.SlotsFilled) {routes : List Route} :
    slotRoutes normal = .ok routes ↔
      (∀ part ∈ normal.sections, part.Conventional) ∧ routes = normal.layout := by
  have bySlot : ∀ slot ∈ Slot.all, ∀ block,
      (match normal.findSection? slot with
        | some part => part.routes normal.moduleId
        | none => throw (.missingSection slot) : Except Fault (List Route)) = .ok block ↔
      (∀ part, normal.findSection? slot = some part → part.Conventional) ∧
        block = normal.blockOf slot := by
    intro slot _ block
    obtain ⟨part, found⟩ := filled.exists_findSection? slot
    have member := (filled.findSection?_eq_some_iff.mp found).1
    simp [found, blockOf, Section.routes_eq_ok_iff (filled.noun_isSome member)]
  have everywhere : (∀ slot ∈ Slot.all, ∀ part, normal.findSection? slot = some part →
      part.Conventional) ↔ ∀ part ∈ normal.sections, part.Conventional := by
    constructor
    · intro each part member
      exact each part.kind part.kind.mem_all part
        (filled.findSection?_eq_some_iff.mpr ⟨member, rfl⟩)
    · intro each slot _ part found
      exact each part (filled.findSection?_eq_some_iff.mp found).1
  unfold slotRoutes
  rw [Outcome.bind_eq_ok_iff]
  constructor
  · rintro ⟨blocks, traversed, joined⟩
    obtain ⟨keeps, rfl⟩ := (Outcome.mapM_eq_ok_iff_map _ bySlot).mp traversed
    exact ⟨everywhere.mp keeps, Outcome.pure_eq_ok_iff.mp joined⟩
  · rintro ⟨keeps, rfl⟩
    exact ⟨_, (Outcome.mapM_eq_ok_iff_map _ bySlot).mpr ⟨everywhere.mpr keeps, rfl⟩, rfl⟩

/-- There is no collision when the routes fall on different methods and paths. -/
theorem firstCollision?_eq_none_iff {seen routes : List Route} :
    firstCollision? seen routes = none ↔
      (routes.map Route.endpoint).Nodup ∧
        ∀ route ∈ routes, ∀ earlier ∈ seen, earlier.endpoint ≠ route.endpoint := by
  induction routes generalizing seen with
  | nil => simp [firstCollision?]
  | cons route routes ih =>
      unfold firstCollision?
      cases collision : seen.find? fun earlier => earlier.endpoint = route.endpoint with
      | some earlier =>
          have same : earlier.endpoint = route.endpoint := by simpa using List.find?_some collision
          refine ⟨nofun, fun ⟨_, apart⟩ => ?_⟩
          exact absurd same (apart route List.mem_cons_self _ (List.mem_of_find?_eq_some collision))
      | none =>
          have fresh : ∀ earlier ∈ seen, earlier.endpoint ≠ route.endpoint := by
            simpa using List.find?_eq_none.mp collision
          rw [List.map_cons, List.nodup_cons, List.forall_mem_cons]
          refine ih.trans ⟨fun ⟨distinct, apart⟩ => ?_, fun ⟨⟨absent, distinct⟩, _, apart⟩ => ?_⟩
          · refine ⟨⟨fun repeated => ?_, distinct⟩, fresh, fun other member earlier inSeen =>
              apart other member earlier (List.mem_cons_of_mem _ inSeen)⟩
            obtain ⟨other, member, same⟩ := List.mem_map.mp repeated
            exact apart other member route List.mem_cons_self same.symm
          · refine ⟨distinct, fun other member earlier inSeen same => ?_⟩
            rcases List.mem_cons.mp inSeen with rfl | before
            · exact absent (List.mem_map.mpr ⟨other, member, same.symm⟩)
            · exact apart other member earlier before same

/-- What compiling gives: the layout of a normal form that keeps every convention. -/
theorem compile_eq_ok_iff {table : RouteTable} :
    compiler.compile definition = .ok table ↔ ∃ normal, definition.normalize = .ok normal ∧
      normal.SlotsFilled ∧ (∀ part ∈ normal.sections, part.Conventional) ∧
      (normal.layout.map Route.endpoint).Nodup ∧
      table = ⟨normal.moduleId, normal.theme, compiler.mountOf normal, normal.layout⟩ := by
  unfold compile compileBare
  rw [Outcome.mapError_eq_ok_iff, Outcome.bind_eq_ok_iff]
  refine exists_congr fun normal => and_congr_right' ?_
  rw [Outcome.check_bind_eq_ok_iff, validateSlots_eq_ok_iff]
  refine and_congr_right fun filled => ?_
  rw [Outcome.bind_eq_ok_iff]
  constructor
  · rintro ⟨routes, generated, rest⟩
    obtain ⟨keeps, rfl⟩ := (slotRoutes_eq_ok_iff filled).mp generated
    cases collision : firstCollision? [] normal.layout with
    | some pair => rw [collision] at rest; cases rest
    | none =>
        rw [collision] at rest
        exact ⟨keeps, (firstCollision?_eq_none_iff.mp collision).1, Outcome.pure_eq_ok_iff.mp rest⟩
  · rintro ⟨keeps, distinct, rfl⟩
    refine ⟨normal.layout, (slotRoutes_eq_ok_iff filled).mpr ⟨keeps, rfl⟩, ?_⟩
    rw [firstCollision?_eq_none_iff.mpr ⟨distinct, by simp⟩]
    rfl

/-- **Acceptance.** A definition is compiled, whatever the compiler's prefix, exactly when all of
its names have tokens, each slot is filled once with a resource where the slot is one for resources,
and in the normal form every section keeps the conventions of its kind and no two actions fall on
one method and path. -/
theorem exists_compile_iff (compiler : Compiler) (definition : Definition) :
    (∃ table, compiler.compile definition = .ok table) ↔
      definition.NamesNormalize ∧ definition.SlotsFilled ∧
        ∃ normal, definition.normalize = .ok normal ∧
          (∀ part ∈ normal.sections, part.Conventional) ∧ normal.endpoints.Nodup := by
  simp only [compile_eq_ok_iff]
  constructor
  · rintro ⟨_, normal, normalized, filled, keeps, distinct, _⟩
    exact ⟨exists_normalize_iff.mp ⟨normal, normalized⟩,
      (slotsFilled_iff_of_normalize normalized).mp filled, normal, normalized, keeps,
      (endpoints_perm filled keeps).nodup_iff.mp distinct⟩
  · rintro ⟨_, filled, normal, normalized, keeps, distinct⟩
    have normalFilled := (slotsFilled_iff_of_normalize normalized).mpr filled
    exact ⟨_, normal, normalized, normalFilled, keeps,
      (endpoints_perm normalFilled keeps).nodup_iff.mpr distinct, rfl⟩

end Compiler

end ModuleRoutes
