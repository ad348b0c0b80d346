import Mathlib.Data.List.Nodup
import ModuleRoutes.Proofs.Outcome
import ModuleRoutes.Section.Layout

/-!
# The conventions of sections

A section keeps the conventions of its kind when its actions have the number, the names, the methods
and the addressing that the kind asks for. The routes of a section exist exactly when it keeps them,
and are then laid out by its actions alone (`ModuleRoutes.Section.routes_eq_ok_iff`): each action
has one path, and the actions of a resource are listed verbs first.
-/

namespace ModuleRoutes

namespace Verb

theorem mem_all (verb : Verb) : verb ∈ all := by cases verb <;> decide

/-- A verb is found by its name, and no other name is found. -/
theorem ofText?_eq_some_iff {name : String} {verb : Verb} :
    ofText? name = some verb ↔ name = verb.text := by
  constructor
  · intro found
    have named : verb.text = name := by simpa using List.find?_some found
    exact named.symm
  · rintro rfl
    cases verb <;> decide

end Verb

namespace Section

/-- What each kind of section asks of the methods and the addressing of its actions. -/
def KindRule (part : Section) : Prop :=
  match part.kind.kind with
  | .dashboard => ∀ action ∈ part.actions, action.method = .get ∧ action.needsId = false
  | .resource => ∀ action ∈ part.actions, ∀ verb : Verb, action.name = verb.text →
      action.method = verb.method ∧ action.needsId = verb.needsId
  | .analytics | .utilities => ∀ action ∈ part.actions, action.needsId = false
  | .settings => part.actions.map Action.method = [.get, .put] ∧
      ∀ action ∈ part.actions, action.needsId = false

/-- A section that keeps every convention. -/
structure Conventional (part : Section) : Prop where
  arity : part.actions.length = part.kind.arity
  distinctNames : (part.actions.map Action.name).Nodup
  patchFree : ∀ action ∈ part.actions, action.method ≠ .patch
  kindRule : part.KindRule
  primaryVerbs : part.kind = .primaryResource →
    ∀ verb ∈ [Verb.list, .detail, .create, .update],
      ∃ action ∈ part.actions, action.name = verb.text

/-- The path of an action of a resource. -/
def resourcePath (part : Section) (action : Action) : String :=
  match Verb.ofText? action.name with
  | some verb => verbPath part.idStyle ("/" ++ part.resourceName.getD "") verb.text
  | none => customPath part.idStyle ("/" ++ part.resourceName.getD "") action

/-- The path of the action at a place of a section. -/
def pathAt (part : Section) (index : Nat) (action : Action) : String :=
  match part.kind.kind with
  | .dashboard => if index = 0 then "/dashboard" else "/dashboard" ++ "/" ++ action.name
  | .resource => part.resourcePath action
  | .analytics => if index = 0 then "/analytics" else "/analytics" ++ "/" ++ action.name
  | .settings => "/settings"
  | .utilities => "/" ++ action.name

/-- The actions of a section in the order of its routes. -/
def tableOrder (part : Section) : List Action :=
  if part.kind.isResource then
    Verb.all.filterMap part.actionFor? ++ part.actions.filter fun action => !Verb.isVerb action.name
  else part.actions

/-- The routes of a section that keeps the conventions. -/
def layout (moduleId : String) (part : Section) : List Route :=
  part.tableOrder.mapIdx fun index action => part.route moduleId action (part.pathAt index action)

variable {moduleId : String} {part : Section}

/-! ## The checks one by one -/

theorem expectArity_eq_ok_iff :
    part.expectArity = .ok () ↔ part.actions.length = part.kind.arity := by
  unfold expectArity
  split <;> simp_all

theorem firstRepeat?_eq_none_iff {seen names : List String} :
    firstRepeat? seen names = none ↔ names.Nodup ∧ ∀ name ∈ names, name ∉ seen := by
  induction names generalizing seen with
  | nil => simp [firstRepeat?]
  | cons name names ih =>
      by_cases repeated : name ∈ seen
      · simp [firstRepeat?, repeated]
      · rw [firstRepeat?, if_neg repeated, ih, List.nodup_cons, List.forall_mem_cons]
        constructor
        · rintro ⟨distinct, fresh⟩
          exact ⟨⟨fun member => fresh name member List.mem_cons_self, distinct⟩, repeated,
            fun other member inSeen => fresh other member (List.mem_cons_of_mem _ inSeen)⟩
        · rintro ⟨⟨absent, distinct⟩, _, fresh⟩
          refine ⟨distinct, fun other member inSeen => ?_⟩
          rcases List.mem_cons.mp inSeen with rfl | earlier
          · exact absent member
          · exact fresh other member earlier

theorem expectUniqueNames_eq_ok_iff :
    part.expectUniqueNames = .ok () ↔ (part.actions.map Action.name).Nodup := by
  have unseen : firstRepeat? [] (part.actions.map Action.name) = none ↔
      (part.actions.map Action.name).Nodup := by
    simp [firstRepeat?_eq_none_iff]
  unfold expectUniqueNames
  split <;> simp_all

theorem rejectItem_eq_ok_iff {action : Action} :
    part.rejectItem action = .ok () ↔ action.needsId = false := by
  unfold rejectItem breach
  split <;> simp_all

theorem dashboardCheck_eq_ok_iff {action : Action} :
    part.dashboardCheck action = .ok () ↔ action.method = .get := by
  unfold dashboardCheck breach
  split <;> simp_all

theorem expectShape_eq_ok_iff {verb : Verb} {action : Action} :
    part.expectShape verb action = .ok () ↔
      action.method = verb.method ∧ action.needsId = verb.needsId := by
  unfold expectShape breach
  split
  · simp_all
  · split
    · simp_all
    · split <;> simp_all

theorem actionFor?_isSome_iff {verb : Verb} :
    (part.actionFor? verb).isSome ↔ ∃ action ∈ part.actions, action.name = verb.text := by
  simp [actionFor?]

theorem expectPrimaryVerbs_eq_ok_iff :
    part.expectPrimaryVerbs = .ok () ↔
      (part.kind = .primaryResource → ∀ verb ∈ [Verb.list, .detail, .create, .update],
        ∃ action ∈ part.actions, action.name = verb.text) := by
  unfold expectPrimaryVerbs
  by_cases primary : part.kind = .primaryResource
  · rw [if_pos primary]
    cases lacking : primaryVerbs.find? fun verb => (part.actionFor? verb).isNone with
    | some verb =>
        have member := List.mem_of_find?_eq_some lacking
        have undeclared := List.find?_some lacking
        refine ⟨nofun, fun declared => ?_⟩
        have found := actionFor?_isSome_iff.mpr (declared primary verb member)
        simp [Option.isSome_iff_ne_none.mp found] at undeclared
    | none =>
        refine ⟨fun _ _ verb member => actionFor?_isSome_iff.mp ?_, fun _ => rfl⟩
        simpa [Option.isSome_iff_ne_none] using List.find?_eq_none.mp lacking verb member
  · simp [primary]

/-! ## The routes of each kind of section -/

theorem mapHead_eq_mapIdx {α β : Type} (first rest : α → β) (items : List α) :
    mapHead first rest items =
      items.mapIdx fun index item => if index = 0 then first item else rest item := by
  cases items with
  | nil => rfl
  | cons item items =>
      have later : (items.mapIdx fun index item =>
          if index + 1 = 0 then first item else rest item) = items.map rest :=
        Places.mapIdx_eq_map fun index _ => if_neg (Nat.succ_ne_zero index)
      rw [mapHead, List.mapIdx_cons, if_pos rfl, later]

/-- Sections with a root path: the checks of the actions pass, and the paths hang on the root. -/
theorem anchoredRoutes_eq_ok_iff {root : String} {check : Action → Except Fault Unit}
    {routes : List Route} :
    part.anchoredRoutes moduleId root check = .ok routes ↔
      part.actions.length = part.kind.arity ∧ (part.actions.map Action.name).Nodup ∧
        (∀ action ∈ part.actions, check action = .ok () ∧ action.needsId = false) ∧
        routes = part.actions.mapIdx fun index action =>
          part.route moduleId action (if index = 0 then root else root ++ "/" ++ action.name) := by
  have laid : mapHead (fun action => part.route moduleId action root)
      (fun action => part.route moduleId action (root ++ "/" ++ action.name)) part.actions =
        part.actions.mapIdx fun index action =>
          part.route moduleId action (if index = 0 then root else root ++ "/" ++ action.name) := by
    rw [mapHead_eq_mapIdx]
    congr
    funext index action
    split <;> rfl
  unfold anchoredRoutes
  simp only [Outcome.check_bind_eq_ok_iff, expectArity_eq_ok_iff, expectUniqueNames_eq_ok_iff,
    Outcome.forM_eq_ok_iff, rejectItem_eq_ok_iff, laid]
  refine and_congr_right' (and_congr_right' (and_congr_right' ?_))
  exact Outcome.pure_eq_ok_iff

theorem actionFor?_spec {verb : Verb} {action : Action}
    (found : part.actionFor? verb = some action) :
    action ∈ part.actions ∧ action.name = verb.text :=
  ⟨List.mem_of_find?_eq_some found, by simpa using List.find?_some found⟩

/-- Among distinct names, a verb finds the one action with its name. -/
theorem actionFor?_eq_some_iff (distinct : (part.actions.map Action.name).Nodup) {verb : Verb}
    {action : Action} :
    part.actionFor? verb = some action ↔ action ∈ part.actions ∧ action.name = verb.text := by
  refine ⟨actionFor?_spec, fun ⟨member, named⟩ => ?_⟩
  obtain ⟨other, found⟩ := Option.isSome_iff_exists.mp
    (actionFor?_isSome_iff.mpr ⟨action, member, named⟩)
  obtain ⟨otherMember, otherNamed⟩ := actionFor?_spec found
  rw [found, List.inj_on_of_nodup_map distinct otherMember member (otherNamed.trans named.symm)]

/-- The routes of verbs exist when the actions named by verbs have their shapes. -/
theorem verbRoutes_eq_ok_iff {routes : List Route}
    (distinct : (part.actions.map Action.name).Nodup) :
    part.verbRoutes moduleId ("/" ++ part.resourceName.getD "") = .ok routes ↔
      (∀ action ∈ part.actions, ∀ verb : Verb, action.name = verb.text →
        action.method = verb.method ∧ action.needsId = verb.needsId) ∧
      routes = (Verb.all.filterMap part.actionFor?).map fun action =>
        part.route moduleId action (part.resourcePath action) := by
  have shaped : (∀ pair ∈ Verb.all.filterMap fun verb =>
        (part.actionFor? verb).map fun action => (verb, action),
        part.expectShape pair.1 pair.2 = .ok ()) ↔
      ∀ action ∈ part.actions, ∀ verb : Verb, action.name = verb.text →
        action.method = verb.method ∧ action.needsId = verb.needsId := by
    simp only [List.mem_filterMap, Option.map_eq_some_iff, actionFor?_eq_some_iff distinct,
      expectShape_eq_ok_iff]
    constructor
    · intro each action member verb named
      exact each (verb, action) ⟨verb, verb.mem_all, action, ⟨member, named⟩, rfl⟩
    · rintro each _ ⟨verb, _, action, ⟨member, named⟩, rfl⟩
      exact each action member verb named
  have placed : ((Verb.all.filterMap fun verb =>
        (part.actionFor? verb).map fun action => (verb, action)).map fun pair =>
          part.route moduleId pair.2
            (verbPath part.idStyle ("/" ++ part.resourceName.getD "") pair.1.text)) =
      (Verb.all.filterMap part.actionFor?).map fun action =>
        part.route moduleId action (part.resourcePath action) := by
    rw [List.map_filterMap, List.map_filterMap]
    refine List.filterMap_congr fun verb _ => ?_
    cases found : part.actionFor? verb with
    | none => rfl
    | some action =>
        have named := Verb.ofText?_eq_some_iff.mpr (actionFor?_spec found).2
        simp [resourcePath, named]
  unfold verbRoutes
  rw [Outcome.mapM_eq_ok_iff_map (fun pair => part.expectShape pair.1 pair.2 = .ok ())
    fun pair _ route => ?_, shaped, placed]
  rw [Outcome.check_bind_eq_ok_iff]
  exact and_congr_right' Outcome.pure_eq_ok_iff

theorem customRoutes_eq :
    part.customRoutes moduleId ("/" ++ part.resourceName.getD "") =
      (part.actions.filter fun action => !Verb.isVerb action.name).map fun action =>
        part.route moduleId action (part.resourcePath action) := by
  unfold customRoutes
  refine List.map_congr_left fun action member => ?_
  have custom : Verb.ofText? action.name = none := by
    simpa [Verb.isVerb] using (List.mem_filter.mp member).2
  simp [resourcePath, custom]

theorem resourceRoutes_eq_ok_iff {routes : List Route} (named : part.resourceName.isSome) :
    part.resourceRoutes moduleId = .ok routes ↔
      part.actions.length = part.kind.arity ∧ (part.actions.map Action.name).Nodup ∧
        (part.kind = .primaryResource → ∀ verb ∈ [Verb.list, .detail, .create, .update],
          ∃ action ∈ part.actions, action.name = verb.text) ∧
        (∀ action ∈ part.actions, ∀ verb : Verb, action.name = verb.text →
          action.method = verb.method ∧ action.needsId = verb.needsId) ∧
        routes = (Verb.all.filterMap part.actionFor? ++
          part.actions.filter fun action => !Verb.isVerb action.name).map fun action =>
            part.route moduleId action (part.resourcePath action) := by
  obtain ⟨noun, given⟩ := Option.isSome_iff_exists.mp named
  have base : "/" ++ noun = "/" ++ part.resourceName.getD "" := by rw [given, Option.getD_some]
  unfold resourceRoutes
  simp only [given, Outcome.check_bind_eq_ok_iff, expectArity_eq_ok_iff,
    expectUniqueNames_eq_ok_iff]
  refine and_congr_right' (and_congr_right fun distinct => ?_)
  change (part.expectPrimaryVerbs >>= fun _ =>
    part.verbRoutes moduleId ("/" ++ noun) >>= fun verbs =>
      pure (verbs ++ part.customRoutes moduleId ("/" ++ noun))) = .ok routes ↔ _
  rw [Outcome.check_bind_eq_ok_iff, expectPrimaryVerbs_eq_ok_iff, base, customRoutes_eq]
  simp only [Outcome.bind_eq_ok_iff, verbRoutes_eq_ok_iff distinct, List.map_append]
  refine and_congr_right' ⟨?_, ?_⟩
  · rintro ⟨_, ⟨shaped, rfl⟩, joined⟩
    exact ⟨shaped, Outcome.pure_eq_ok_iff.mp joined⟩
  · rintro ⟨shaped, rfl⟩
    exact ⟨_, ⟨shaped, rfl⟩, rfl⟩

/-! ## The routes of a section -/

/-- The layout of a resource: its actions verbs first, each on its own path. -/
theorem layout_of_resource (kind : part.kind.kind = .resource) :
    part.layout moduleId = (Verb.all.filterMap part.actionFor? ++
      part.actions.filter fun action => !Verb.isVerb action.name).map fun action =>
        part.route moduleId action (part.resourcePath action) := by
  unfold layout
  rw [tableOrder, if_pos (by simp [Slot.isResource, kind])]
  exact Places.mapIdx_eq_map fun index action => by rw [pathAt, kind]

theorem layout_of_not_resource (kind : part.kind.kind ≠ .resource) :
    part.layout moduleId = part.actions.mapIdx fun index action =>
      part.route moduleId action (part.pathAt index action) := by
  rw [layout, tableOrder, if_neg (by simp [Slot.isResource, kind])]

/-- The routes of a section with a root path, whose kind asks for a check of each action. -/
theorem rootedRoutes_eq_ok_iff {root : String} {check : Action → Except Fault Unit}
    {routes : List Route} (kind : part.kind.kind ≠ .resource)
    (placed : ∀ index action,
      part.pathAt index action = if index = 0 then root else root ++ "/" ++ action.name)
    (rule : part.KindRule ↔
      ∀ action ∈ part.actions, check action = .ok () ∧ action.needsId = false) :
    part.anchoredRoutes moduleId root check = .ok routes ↔
      part.actions.length = part.kind.arity ∧ (part.actions.map Action.name).Nodup ∧
        part.KindRule ∧ routes = part.layout moduleId := by
  rw [anchoredRoutes_eq_ok_iff, rule, layout_of_not_resource kind]
  simp only [placed]

theorem settingsRoutes_eq_ok_iff {routes : List Route} (kind : part.kind.kind = .settings) :
    part.settingsRoutes moduleId = .ok routes ↔
      part.actions.length = part.kind.arity ∧ (part.actions.map Action.name).Nodup ∧
        part.KindRule ∧ routes = part.layout moduleId := by
  have rule : part.KindRule ↔ part.actions.map Action.method = [.get, .put] ∧
      ∀ action ∈ part.actions, action.needsId = false := by
    rw [KindRule, kind]
  have laid : part.layout moduleId = part.actions.map fun action =>
      part.route moduleId action "/settings" := by
    rw [layout_of_not_resource (by simp [kind])]
    exact Places.mapIdx_eq_map fun index action => by rw [pathAt, kind]
  unfold settingsRoutes breach
  simp only [Outcome.check_bind_eq_ok_iff, expectArity_eq_ok_iff, expectUniqueNames_eq_ok_iff, rule,
    laid, and_assoc]
  refine and_congr_right' (and_congr_right' ?_)
  by_cases pair : part.actions.map Action.method = [.get, .put]
  · simp only [settingsMethods, pair, ne_eq, not_true_eq_false, if_false, true_and,
      Outcome.check_bind_eq_ok_iff, Outcome.forM_eq_ok_iff, rejectItem_eq_ok_iff]
    refine and_congr_right' ?_
    exact Outcome.pure_eq_ok_iff
  · simp [settingsMethods, pair, bind, Except.bind]

theorem utilityRoutes_eq_ok_iff {routes : List Route} (kind : part.kind.kind = .utilities) :
    part.utilityRoutes moduleId = .ok routes ↔
      part.actions.length = part.kind.arity ∧ (part.actions.map Action.name).Nodup ∧
        part.KindRule ∧ routes = part.layout moduleId := by
  have rule : part.KindRule ↔ ∀ action ∈ part.actions, action.needsId = false := by
    rw [KindRule, kind]
  have laid : part.layout moduleId = part.actions.map fun action =>
      part.route moduleId action ("/" ++ action.name) := by
    rw [layout_of_not_resource (by simp [kind])]
    exact Places.mapIdx_eq_map fun index action => by rw [pathAt, kind]
  unfold utilityRoutes
  simp only [Outcome.check_bind_eq_ok_iff, expectArity_eq_ok_iff, expectUniqueNames_eq_ok_iff,
    Outcome.forM_eq_ok_iff, rejectItem_eq_ok_iff, rule, laid]
  refine and_congr_right' (and_congr_right' (and_congr_right' ?_))
  exact Outcome.pure_eq_ok_iff

/-- A section of another kind than resource keeps the conventions when it keeps those of its kind.
-/
theorem conventional_iff (patchFree : ∀ action ∈ part.actions, action.method ≠ .patch)
    (kind : part.kind.kind ≠ .resource) :
    part.Conventional ↔ part.actions.length = part.kind.arity ∧
      (part.actions.map Action.name).Nodup ∧ part.KindRule := by
  constructor
  · intro keeps
    exact ⟨keeps.arity, keeps.distinctNames, keeps.kindRule⟩
  · rintro ⟨arity, distinct, rule⟩
    exact ⟨arity, distinct, patchFree, rule, fun primary => absurd (by rw [primary]; rfl) kind⟩

/-- A section with its noun has routes exactly when it keeps the conventions, and then they are its
layout. -/
theorem routes_eq_ok_iff {routes : List Route}
    (named : part.kind.isResource = true → part.resourceName.isSome) :
    part.routes moduleId = .ok routes ↔ part.Conventional ∧ routes = part.layout moduleId := by
  unfold Section.routes
  cases patched : part.actions.find? fun action => action.method = .patch with
  | some action =>
      have member := List.mem_of_find?_eq_some patched
      have uses : action.method = .patch := by simpa using List.find?_some patched
      exact ⟨nofun, fun ⟨keeps, _⟩ => absurd uses (keeps.patchFree action member)⟩
  | none =>
      have patchFree : ∀ action ∈ part.actions, action.method ≠ .patch := by
        simpa using List.find?_eq_none.mp patched
      cases kind : part.kind.kind with
      | dashboard =>
          rw [conventional_iff patchFree (by simp [kind]), and_assoc, and_assoc]
          refine rootedRoutes_eq_ok_iff (by simp [kind]) (fun _ _ => by rw [pathAt, kind]) ?_
          simp only [KindRule, kind, dashboardCheck_eq_ok_iff]
      | resource =>
          have rule : part.KindRule ↔ ∀ action ∈ part.actions, ∀ verb : Verb,
              action.name = verb.text →
                action.method = verb.method ∧ action.needsId = verb.needsId := by
            rw [KindRule, kind]
          rw [resourceRoutes_eq_ok_iff (named (by simp [Slot.isResource, kind])),
            layout_of_resource kind, ← rule]
          constructor
          · rintro ⟨arity, distinct, verbs, shaped, rfl⟩
            exact ⟨⟨arity, distinct, patchFree, shaped, verbs⟩, rfl⟩
          · rintro ⟨keeps, rfl⟩
            exact ⟨keeps.arity, keeps.distinctNames, keeps.primaryVerbs, keeps.kindRule, rfl⟩
      | analytics =>
          rw [conventional_iff patchFree (by simp [kind]), and_assoc, and_assoc]
          refine rootedRoutes_eq_ok_iff (by simp [kind]) (fun _ _ => by rw [pathAt, kind]) ?_
          simp only [KindRule, kind, true_and]
      | settings =>
          rw [conventional_iff patchFree (by simp [kind]), and_assoc, and_assoc]
          exact settingsRoutes_eq_ok_iff kind
      | utilities =>
          rw [conventional_iff patchFree (by simp [kind]), and_assoc, and_assoc]
          exact utilityRoutes_eq_ok_iff kind

end Section

end ModuleRoutes
