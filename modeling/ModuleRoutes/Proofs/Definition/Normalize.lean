import ModuleRoutes.Definition.Normalize
import ModuleRoutes.Proofs.Name.Token
import ModuleRoutes.Proofs.Outcome

/-!
# What normalization gives

A definition has a normal form exactly when each of its names has a token
(`ModuleRoutes.Definition.exists_normalize_iff`). The normal form keeps the slots, the id styles and
which sections name a resource, and every name in it is a token.
-/

namespace ModuleRoutes

namespace Name

/-- A text that has a token. -/
def Normalizes (raw : String) : Prop := ∃ token, normalize raw = .ok token

theorem normalizeMount_eq_ok_iff {raw mount : String} :
    normalizeMount raw = .ok mount ↔ ∃ tokens, (Text.segments '/' raw).mapM normalize = .ok tokens ∧
      tokens ≠ [] ∧ mount = "/" ++ Text.joined "/" tokens := by
  unfold normalizeMount
  rw [Outcome.bind_eq_ok_iff]
  refine exists_congr fun tokens => and_congr_right' ?_
  cases tokens with
  | nil => exact ⟨nofun, fun ⟨nonempty, _⟩ => absurd rfl nonempty⟩
  | cons token tokens =>
      exact ⟨fun same => ⟨nofun, Outcome.pure_eq_ok_iff.mp same⟩, fun ⟨_, same⟩ => same ▸ rfl⟩

theorem isToken_of_mapM_normalize {α : Type} {items : List α} {text : α → String}
    {names : List String} (each : (items.mapM fun item => normalize (text item)) = .ok names) :
    ∀ name ∈ names, IsToken name := by
  intro name member
  obtain ⟨_, _, normal⟩ := Outcome.exists_of_mem_mapM each member
  exact isToken_of_normalize normal

/-- The segments of a mount are tokens. -/
theorem exists_tokens_of_normalizeMount {raw mount : String}
    (spelled : normalizeMount raw = .ok mount) :
    ∃ tokens : List String, mount = "/" ++ Text.joined "/" tokens ∧ tokens ≠ [] ∧
      ∀ token ∈ tokens, IsToken token := by
  obtain ⟨tokens, each, nonempty, rfl⟩ := normalizeMount_eq_ok_iff.mp spelled
  exact ⟨tokens, rfl, nonempty, isToken_of_mapM_normalize each⟩

/-- A text spells a mount when it has a segment and each of its segments has a token. -/
theorem exists_normalizeMount_iff {raw : String} :
    (∃ mount, normalizeMount raw = .ok mount) ↔
      Text.segments '/' raw ≠ [] ∧ ∀ part ∈ Text.segments '/' raw, Normalizes part := by
  simp only [normalizeMount_eq_ok_iff, Normalizes]
  rw [← Outcome.exists_mapM_eq_ok_iff]
  constructor
  · rintro ⟨_, tokens, each, nonempty, _⟩
    refine ⟨fun noSegments => nonempty ?_, tokens, each⟩
    have pointwise := Outcome.mapM_eq_ok_iff.mp each
    rw [noSegments] at pointwise
    exact List.forall₂_nil_left_iff.mp pointwise
  · rintro ⟨nonempty, tokens, each⟩
    refine ⟨_, tokens, each, fun noTokens => nonempty ?_, rfl⟩
    have pointwise := Outcome.mapM_eq_ok_iff.mp each
    rw [noTokens] at pointwise
    exact List.forall₂_nil_right_iff.mp pointwise

end Name

namespace Section

variable {style : NounStyle} {part normal : Section}

theorem normalNoun_eq_ok_iff {raw noun : String} :
    normalNoun style raw = .ok noun ↔ ∃ token, Name.normalize raw = .ok token ∧
      noun = if style = .plural then Name.plural token else token := by
  unfold normalNoun
  rw [Outcome.map_eq_ok_iff]
  refine exists_congr fun token => and_congr_right' ?_
  cases style <;> exact eq_comm

/-- A section is normalized name by name. -/
theorem normalize_eq_ok_iff :
    part.normalize style = .ok normal ↔ ∃ noun names,
      part.resourceName.mapM (normalNoun style) = .ok noun ∧
      (part.actions.mapM fun action => Name.normalize action.name) = .ok names ∧
      normal = { part with
        resourceName := noun
        actions := List.zipWith
          (fun action name => { action with name := actionName part.kind names action name })
          part.actions names } := by
  unfold Section.normalize
  simp only [Outcome.bind_eq_ok_iff]
  refine exists_congr fun noun => ⟨?_, ?_⟩
  · rintro ⟨spelled, names, each, rest⟩
    exact ⟨names, spelled, each, Outcome.pure_eq_ok_iff.mp rest⟩
  · rintro ⟨names, spelled, each, rfl⟩
    exact ⟨spelled, names, each, rfl⟩

/-- A section has a normal form when its noun and the names of its actions have tokens. -/
theorem exists_normalize_iff :
    (∃ normal, part.normalize style = .ok normal) ↔
      (∀ raw, part.resourceName = some raw → Name.Normalizes raw) ∧
        ∀ action ∈ part.actions, Name.Normalizes action.name := by
  have nouns : (∃ noun, part.resourceName.mapM (normalNoun style) = .ok noun) ↔
      ∀ raw, part.resourceName = some raw → Name.Normalizes raw := by
    simp only [Outcome.optional_mapM_eq_ok_iff, normalNoun_eq_ok_iff, Name.Normalizes]
    cases part.resourceName with
    | none => simp
    | some raw => simp
  rw [← nouns]
  simp only [Name.Normalizes, ← Outcome.exists_mapM_eq_ok_iff, normalize_eq_ok_iff]
  constructor
  · rintro ⟨_, noun, names, spelled, each, _⟩
    exact ⟨⟨noun, spelled⟩, names, each⟩
  · rintro ⟨⟨noun, spelled⟩, names, each⟩
    exact ⟨_, noun, names, spelled, each, rfl⟩

/-- A section all of whose names are tokens. -/
structure IsNormal (part : Section) : Prop where
  noun : ∀ noun, part.resourceName = some noun → Name.IsToken noun
  names : ∀ action ∈ part.actions, Name.IsToken action.name

/-- The verb that an action is named after is a token, and so is any other name of the action. -/
theorem isToken_actionName {slot : Slot} {names : List String} {action : Action} {name : String}
    (isToken : Name.IsToken name) : Name.IsToken (actionName slot names action name) := by
  have canonical : Name.IsToken (Verb.canonicalActionFor name action.method action.needsId) := by
    unfold Verb.canonicalActionFor
    split
    · next verb _ =>
      split
      · cases verb <;> decide
      · exact isToken
    · exact isToken
  unfold actionName
  split
  · simp only
    split
    · exact isToken
    · exact canonical
  · exact isToken

theorem isToken_normalNoun {raw noun : String} (normal : normalNoun style raw = .ok noun) :
    Name.IsToken noun := by
  obtain ⟨token, spelled, rfl⟩ := normalNoun_eq_ok_iff.mp normal
  have isToken := Name.isToken_of_normalize spelled
  split
  · exact Name.isToken_plural isToken
  · exact isToken

/-- A normal form keeps the slot and the id style, and whether there is a resource. -/
theorem normalize_keeps (normalized : part.normalize style = .ok normal) :
    normal.kind = part.kind ∧ normal.idStyle = part.idStyle ∧
      normal.resourceName.isSome = part.resourceName.isSome := by
  obtain ⟨noun, names, spelled, _, rfl⟩ := normalize_eq_ok_iff.mp normalized
  refine ⟨rfl, rfl, ?_⟩
  rcases Outcome.optional_mapM_eq_ok_iff.mp spelled with ⟨absent, rfl⟩ | ⟨raw, noun, given, _, rfl⟩
  · rw [absent]
  · rw [given]; rfl

theorem slots_of_normalize {parts normals : List Section}
    (each : List.Forall₂ (fun part normal => part.normalize style = .ok normal) parts normals) :
    (normals.map fun part => (part.kind, part.resourceName.isSome)) =
      parts.map fun part => (part.kind, part.resourceName.isSome) := by
  induction each with
  | nil => rfl
  | cons atPart _ ih =>
      obtain ⟨kind, _, noun⟩ := normalize_keeps atPart
      rw [List.map_cons, List.map_cons, ih, kind, noun]

/-- Every name of a normal form is a token. -/
theorem isNormal_of_normalize (normalized : part.normalize style = .ok normal) :
    normal.IsNormal := by
  obtain ⟨noun, names, spelled, each, rfl⟩ := normalize_eq_ok_iff.mp normalized
  constructor
  · rintro token same
    rcases Outcome.optional_mapM_eq_ok_iff.mp spelled with ⟨_, rfl⟩ | ⟨raw, noun, _, normal, rfl⟩
    · cases same
    · cases same
      exact isToken_normalNoun normal
  · intro action member
    have tokens : ∀ name ∈ names, Name.IsToken name := Name.isToken_of_mapM_normalize each
    rw [← List.map_uncurry_zip_eq_zipWith] at member
    obtain ⟨⟨original, name⟩, paired, rfl⟩ := List.mem_map.mp member
    exact isToken_actionName (tokens name (List.of_mem_zip paired).2)

end Section

namespace Definition

variable {definition normal : Definition}

/-- A definition is normalized part by part. -/
theorem normalize_eq_ok_iff :
    definition.normalize = .ok normal ↔ ∃ mount sections moduleId,
      definition.mount.mapM Name.normalizeMount = .ok mount ∧
      List.Forall₂ (fun part normalPart => part.normalize definition.nounStyle = .ok normalPart)
        definition.sections sections ∧
      Name.normalize definition.moduleId = .ok moduleId ∧
      normal = { definition with moduleId := moduleId, mount := mount, sections := sections } := by
  unfold Definition.normalize
  simp only [Outcome.bind_eq_ok_iff, Outcome.mapM_eq_ok_iff, Outcome.mapError_eq_ok_iff]
  refine exists_congr fun mount => ⟨?_, ?_⟩
  · rintro ⟨mounted, sections, each, moduleId, named, rest⟩
    exact ⟨sections, moduleId, mounted, each, named, Outcome.pure_eq_ok_iff.mp rest⟩
  · rintro ⟨sections, moduleId, mounted, each, named, rfl⟩
    exact ⟨mounted, sections, each, moduleId, named, rfl⟩

/-- A definition all of whose names have tokens: the mount has a segment and each of its segments
has a token, and so have the module id, every noun and every action name. -/
structure NamesNormalize (definition : Definition) : Prop where
  mount : ∀ raw, definition.mount = some raw →
    Text.segments '/' raw ≠ [] ∧ ∀ part ∈ Text.segments '/' raw, Name.Normalizes part
  moduleId : Name.Normalizes definition.moduleId
  nouns : ∀ part ∈ definition.sections, ∀ raw, part.resourceName = some raw → Name.Normalizes raw
  actions : ∀ part ∈ definition.sections, ∀ action ∈ part.actions, Name.Normalizes action.name

/-- A definition has a normal form when all of its names have tokens. -/
theorem exists_normalize_iff :
    (∃ normal, definition.normalize = .ok normal) ↔ definition.NamesNormalize := by
  have mounts : (∃ mount, definition.mount.mapM Name.normalizeMount = .ok mount) ↔
      ∀ raw, definition.mount = some raw →
        Text.segments '/' raw ≠ [] ∧ ∀ part ∈ Text.segments '/' raw, Name.Normalizes part := by
    simp only [← Name.exists_normalizeMount_iff, Outcome.optional_mapM_eq_ok_iff]
    cases definition.mount with
    | none => simp
    | some raw => simp
  have parts : (∃ sections, List.Forall₂ (fun part normalPart =>
        part.normalize definition.nounStyle = .ok normalPart) definition.sections sections) ↔
      ∀ part ∈ definition.sections,
        (∀ raw, part.resourceName = some raw → Name.Normalizes raw) ∧
          ∀ action ∈ part.actions, Name.Normalizes action.name := by
    simp only [← @Section.exists_normalize_iff definition.nounStyle,
      ← Outcome.exists_mapM_eq_ok_iff, Outcome.mapM_eq_ok_iff]
  simp only [normalize_eq_ok_iff]
  constructor
  · rintro ⟨_, mount, sections, moduleId, mounted, each, named, _⟩
    have spelled := parts.mp ⟨sections, each⟩
    exact ⟨mounts.mp ⟨mount, mounted⟩, ⟨moduleId, named⟩,
      fun part member => (spelled part member).1, fun part member => (spelled part member).2⟩
  · intro spelled
    obtain ⟨mount, mounted⟩ := mounts.mpr spelled.mount
    obtain ⟨moduleId, named⟩ := spelled.moduleId
    obtain ⟨sections, each⟩ := parts.mpr fun part member =>
      ⟨spelled.nouns part member, spelled.actions part member⟩
    exact ⟨_, mount, sections, moduleId, mounted, each, named, rfl⟩

end Definition

end ModuleRoutes
