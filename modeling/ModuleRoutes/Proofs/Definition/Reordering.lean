import Mathlib.Data.List.Perm.Basic
import ModuleRoutes.Proofs.Definition.Normalize
import ModuleRoutes.Proofs.Definition.Slots
import ModuleRoutes.Proofs.Section.Conventions

/-!
# Definitions in another order

A definition is reordered when its sections are put in any order and the actions of its resources in
any order that keeps those that are no verbs in the order they had. Normalizing looks at the names
of a section without their order, so the normal forms of reordered definitions are reordered too
(`ModuleRoutes.Definition.Reordering.exists_normalize`).
-/

namespace ModuleRoutes

namespace Section

/-- The tokens of the names of a section. -/
def tokens (part : Section) : List String :=
  part.actions.filterMap fun action => (Name.normalize action.name).toOption

/-- The name that an action of a section has when the section is normalized, if it has a token. -/
def normalName? (part : Section) (action : Action) : Option String :=
  (Name.normalize action.name).toOption.map (actionName part.kind part.tokens action)

/-- The actions of a section that are not named by verbs when the section is normalized. -/
def customActions (part : Section) : List Action :=
  part.actions.filter fun action =>
    (part.normalName? action).any fun name => !Verb.isVerb name

/-- A section with its actions in another order. Only the actions of a resource may change places,
and of these the ones that are no verbs stay in order among themselves. -/
structure Reordering (part other : Section) : Prop where
  kind : part.kind = other.kind
  resourceName : part.resourceName = other.resourceName
  idStyle : part.idStyle = other.idStyle
  actions : part.actions.Perm other.actions
  customActions : part.customActions = other.customActions
  inOrder : part.kind.isResource = false → part.actions = other.actions

instance (part other : Section) : Decidable (part.Reordering other) :=
  decidable_of_iff
    (part.kind = other.kind ∧ part.resourceName = other.resourceName ∧
      part.idStyle = other.idStyle ∧ part.actions.Perm other.actions ∧
      part.customActions = other.customActions ∧
      (part.kind.isResource = false → part.actions = other.actions))
    ⟨fun ⟨kind, noun, style, actions, custom, inOrder⟩ =>
        ⟨kind, noun, style, actions, custom, inOrder⟩,
      fun ⟨kind, noun, style, actions, custom, inOrder⟩ =>
        ⟨kind, noun, style, actions, custom, inOrder⟩⟩

variable {style : NounStyle} {part other normal : Section}

theorem Reordering.symm (reordering : part.Reordering other) : other.Reordering part where
  kind := reordering.kind.symm
  resourceName := reordering.resourceName.symm
  idStyle := reordering.idStyle.symm
  actions := reordering.actions.symm
  customActions := reordering.customActions.symm
  inOrder fixed := (reordering.inOrder (reordering.kind ▸ fixed)).symm

/-! ## Normal forms of sections -/

/-- An action as it stands in the normal form of its section. -/
def normalAction (part : Section) (action : Action) : Action :=
  { action with name := (part.normalName? action).getD action.name }

/-- Combining actions with the tokens of their names is mapping them. -/
theorem zipWith_eq_map {actions : List Action} {names : List String}
    {combine : Action → String → Action} {change : Action → Action}
    (each : List.Forall₂ (fun action name => Name.normalize action.name = .ok name) actions names)
    (agree : ∀ action name, Name.normalize action.name = .ok name →
      combine action name = change action) :
    List.zipWith combine actions names = actions.map change := by
  induction each with
  | nil => rfl
  | cons atAction _ ih =>
      rw [List.zipWith_cons_cons, List.map_cons, ih, agree _ _ atAction]

theorem tokens_eq {names : List String}
    (each : (part.actions.mapM fun action => Name.normalize action.name) = .ok names) :
    part.tokens = names := by
  unfold Section.tokens
  generalize part.actions = actions at each
  have pointwise := Outcome.mapM_eq_ok_iff.mp each
  clear each
  induction pointwise with
  | nil => rfl
  | cons atAction _ ih => rw [List.filterMap_cons, atAction, ih]; rfl

/-- A section is normalized action by action, each by itself but for the names of the others. -/
theorem normalize_eq_ok_iff_map :
    part.normalize style = .ok normal ↔
      (∀ action ∈ part.actions, Name.Normalizes action.name) ∧
        ∃ noun, part.resourceName.mapM (normalNoun style) = .ok noun ∧
          normal = { part with
            resourceName := noun
            actions := part.actions.map part.normalAction } := by
  have actionwise : ∀ names, (part.actions.mapM fun action => Name.normalize action.name) =
      .ok names → List.zipWith (fun action name =>
        { action with name := actionName part.kind names action name }) part.actions names =
          part.actions.map part.normalAction := by
    intro names each
    refine zipWith_eq_map (Outcome.mapM_eq_ok_iff.mp each) fun action name normal => ?_
    rw [← tokens_eq each, normalAction, normalName?, normal]
    rfl
  rw [normalize_eq_ok_iff]
  simp only [Name.Normalizes, ← Outcome.exists_mapM_eq_ok_iff]
  constructor
  · rintro ⟨noun, names, spelled, each, rfl⟩
    exact ⟨⟨names, each⟩, noun, spelled, by rw [actionwise names each]⟩
  · rintro ⟨⟨names, each⟩, noun, spelled, rfl⟩
    exact ⟨noun, names, spelled, each, by rw [actionwise names each]⟩

/-- The name that an action takes depends on the names of its section without their order. -/
theorem actionName_congr {slot : Slot} {names others : List String}
    (same : ∀ name, name ∈ names ↔ name ∈ others) :
    actionName slot names = actionName slot others := by
  funext action name
  unfold actionName
  simp only [same]

theorem Reordering.normalName?_eq (reordering : part.Reordering other) :
    part.normalName? = other.normalName? := by
  have tokens : part.tokens.Perm other.tokens := reordering.actions.filterMap _
  funext action
  rw [normalName?, normalName?, reordering.kind, actionName_congr fun name => tokens.mem_iff]

/-- Sections in normal form with the same actions, the verbs among them in any order. -/
structure Rearranged (normal other : Section) : Prop where
  kind : normal.kind = other.kind
  resourceName : normal.resourceName = other.resourceName
  idStyle : normal.idStyle = other.idStyle
  actions : normal.actions.Perm other.actions
  customs : (normal.actions.filter fun action => !Verb.isVerb action.name) =
    other.actions.filter fun action => !Verb.isVerb action.name
  inOrder : normal.kind.isResource = false → normal.actions = other.actions

/-- The actions of a normal form that are no verbs come from those of the section. -/
theorem filter_normalAction (named : ∀ action ∈ part.actions, Name.Normalizes action.name) :
    ((part.actions.map part.normalAction).filter fun action => !Verb.isVerb action.name) =
      part.customActions.map part.normalAction := by
  rw [List.filter_map, customActions]
  refine congrArg _ (List.filter_congr fun action member => ?_)
  obtain ⟨token, normal⟩ := named action member
  simp only [Function.comp_apply, normalAction, normalName?, normal, Except.toOption,
    Option.map_some, Option.getD_some, Option.any_some]

/-- Reordered sections have rearranged normal forms. -/
theorem Reordering.exists_normalize (reordering : part.Reordering other)
    (normalized : part.normalize style = .ok normal) :
    ∃ otherNormal, other.normalize style = .ok otherNormal ∧ normal.Rearranged otherNormal := by
  obtain ⟨named, noun, spelled, rfl⟩ := normalize_eq_ok_iff_map.mp normalized
  have otherNamed : ∀ action ∈ other.actions, Name.Normalizes action.name :=
    fun action member => named action (reordering.actions.mem_iff.mpr member)
  have sameAction : part.normalAction = other.normalAction := by
    funext action
    rw [normalAction, normalAction, reordering.normalName?_eq]
  refine ⟨_, normalize_eq_ok_iff_map.mpr ⟨otherNamed, noun, reordering.resourceName ▸ spelled, rfl⟩,
    { kind := reordering.kind
      resourceName := rfl
      idStyle := reordering.idStyle
      actions := ?_
      customs := ?_
      inOrder := fun fixed => ?_ }⟩
  · change (part.actions.map part.normalAction).Perm (other.actions.map other.normalAction)
    rw [sameAction]
    exact reordering.actions.map _
  · change (part.actions.map part.normalAction).filter _ =
      (other.actions.map other.normalAction).filter _
    rw [filter_normalAction named, filter_normalAction otherNamed, sameAction,
      reordering.customActions]
  · change part.actions.map part.normalAction = other.actions.map other.normalAction
    rw [sameAction, reordering.inOrder fixed]

theorem exists_rearranged {parts others normals : List Section}
    (reordered : List.Forall₂ Reordering parts others)
    (each : List.Forall₂ (fun part normal => part.normalize style = .ok normal) parts normals) :
    ∃ otherNormals,
      List.Forall₂ (fun other normal => other.normalize style = .ok normal) others otherNormals ∧
        List.Forall₂ Rearranged normals otherNormals := by
  induction reordered generalizing normals with
  | nil =>
      cases each
      exact ⟨[], .nil, .nil⟩
  | cons reordering _ ih =>
      cases each with
      | cons atPart rest =>
          obtain ⟨otherNormals, normalRest, rearrangedRest⟩ := ih rest
          obtain ⟨otherNormal, normalFirst, rearrangedFirst⟩ := reordering.exists_normalize atPart
          exact ⟨otherNormal :: otherNormals, .cons normalFirst normalRest,
            .cons rearrangedFirst rearrangedRest⟩

end Section

namespace Definition

/-- A definition with its sections, and the actions in them, in another order. -/
structure Reordering (definition other : Definition) : Prop where
  moduleId : definition.moduleId = other.moduleId
  theme : definition.theme = other.theme
  mount : definition.mount = other.mount
  nounStyle : definition.nounStyle = other.nounStyle
  sections : ∃ arranged, List.Forall₂ Section.Reordering definition.sections arranged ∧
    arranged.Perm other.sections

variable {definition other normal : Definition}

theorem Reordering.symm (reordering : definition.Reordering other) :
    other.Reordering definition where
  moduleId := reordering.moduleId.symm
  theme := reordering.theme.symm
  mount := reordering.mount.symm
  nounStyle := reordering.nounStyle.symm
  sections := by
    obtain ⟨arranged, each, order⟩ := reordering.sections
    have back : List.Forall₂ Section.Reordering arranged definition.sections :=
      each.flip.imp fun _ _ => Section.Reordering.symm
    obtain ⟨sections, otherEach, sectionsOrder⟩ := List.perm_comp_forall₂ order.symm back
    exact ⟨sections, otherEach, sectionsOrder⟩

/-- Reordered definitions have normal forms with rearranged sections. -/
theorem Reordering.exists_normalize (reordering : definition.Reordering other)
    (normalized : definition.normalize = .ok normal) :
    ∃ otherNormal, other.normalize = .ok otherNormal ∧
      otherNormal.moduleId = normal.moduleId ∧ otherNormal.theme = normal.theme ∧
      otherNormal.mount = normal.mount ∧
      ∃ arranged, List.Forall₂ Section.Rearranged normal.sections arranged ∧
        arranged.Perm otherNormal.sections := by
  obtain ⟨mount, sections, moduleId, mounted, each, named, rfl⟩ :=
    normalize_eq_ok_iff.mp normalized
  obtain ⟨reordered, pointwise, order⟩ := reordering.sections
  obtain ⟨arranged, normalEach, rearranged⟩ := Section.exists_rearranged pointwise each
  obtain ⟨otherSections, otherEach, sectionsOrder⟩ :=
    List.perm_comp_forall₂ order.symm normalEach
  refine ⟨{ other with moduleId := moduleId, mount := mount, sections := otherSections },
    normalize_eq_ok_iff.mpr ⟨mount, otherSections, moduleId, reordering.mount ▸ mounted,
      reordering.nounStyle ▸ otherEach, reordering.moduleId ▸ named, rfl⟩, rfl,
    reordering.theme.symm, rfl, arranged, rearranged, sectionsOrder.symm⟩

end Definition

end ModuleRoutes
