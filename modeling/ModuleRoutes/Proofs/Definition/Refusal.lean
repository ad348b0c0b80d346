import ModuleRoutes.Proofs.Definition.Normalize
import ModuleRoutes.Proofs.Refusal

/-!
# Where normalization fails

A definition without a normal form has a name that has no token. The one that is reported is the
first in the order of reading: the mount, then section by section the noun and the names of the
actions, and the module id last (`ModuleRoutes.Definition.normalize_eq_error_iff`). It is reported
as it is written.
-/

namespace ModuleRoutes

open Outcome

namespace Section

/-- The names of a section in the order of reading: its noun, then those of its actions. -/
def names (part : Section) : List String :=
  part.resourceName.toList ++ part.actions.map Action.name

/-- Every name of a section has a token. -/
def NamesNormalize (part : Section) : Prop := ∀ name ∈ part.names, Name.Normalizes name

/-- The first name of a section without a token is the one that a fault reports. -/
def Refuses (part : Section) (fault : InvalidName) : Prop :=
  ∃ before after, part.names = before ++ fault.raw :: after ∧
    (∀ name ∈ before, Name.Normalizes name) ∧ Name.normalize fault.raw = .error fault

variable {style : NounStyle} {part : Section} {fault : InvalidName}

theorem exists_normalize_iff_namesNormalize :
    (∃ normal, part.normalize style = .ok normal) ↔ part.NamesNormalize := by
  rw [exists_normalize_iff]
  simp [NamesNormalize, names, or_imp, forall_and]

theorem refuses_iff : part.Refuses fault ↔ part.names.mapM Name.normalize = .error fault := by
  rw [mapM_eq_error_iff]
  constructor
  · rintro ⟨before, after, split, passed, refused⟩
    exact ⟨before, fault.raw, after, split, passed, refused⟩
  · rintro ⟨before, raw, after, split, passed, refused⟩
    obtain rfl := (Name.fault_of_normalize refused).1
    exact ⟨before, after, split, passed, refused⟩

theorem normalNoun_eq_error_iff {raw : String} :
    normalNoun style raw = .error fault ↔ Name.normalize raw = .error fault :=
  map_eq_error_iff

/-- The normal form of a section fails as reading its names one after the other does. -/
theorem normalize_eq_error_iff : part.normalize style = .error fault ↔ part.Refuses fault := by
  have atActions : (part.actions.map Action.name).mapM Name.normalize =
      part.actions.mapM fun action => Name.normalize action.name := List.mapM_map
  have inOrder : part.normalize style = .error fault ↔
      part.resourceName.mapM (normalNoun style) = .error fault ∨
        (∃ noun, part.resourceName.mapM (normalNoun style) = .ok noun) ∧
          (part.actions.mapM fun action => Name.normalize action.name) = .error fault := by
    unfold Section.normalize
    rw [bind_eq_error_iff]
    refine or_congr_right ⟨?_, ?_⟩
    · rintro ⟨noun, spelled, rest⟩
      refine ⟨⟨noun, spelled⟩, (bind_eq_error_iff.mp rest).resolve_right ?_⟩
      rintro ⟨_, _, ends⟩
      cases ends
    · rintro ⟨⟨noun, spelled⟩, refused⟩
      exact ⟨noun, spelled, bind_eq_error_iff.mpr (.inl refused)⟩
  rw [inOrder, refuses_iff, names, optional_mapM_eq_error_iff, ← atActions]
  cases part.resourceName with
  | none =>
      simp [pure, Except.pure]
  | some raw =>
      have noun : (∃ noun, (some raw).mapM (normalNoun style) = .ok noun) ↔
          ∃ token, Name.normalize raw = .ok token := by
        simp only [optional_mapM_eq_ok_iff, normalNoun_eq_ok_iff]
        simp
      rw [noun, Option.toList_some, List.singleton_append, List.mapM_cons, bind_eq_error_iff]
      simp only [Option.some.injEq, exists_eq_left', normalNoun_eq_error_iff]
      refine or_congr_right ⟨?_, ?_⟩
      · rintro ⟨⟨token, spelled⟩, refused⟩
        exact ⟨token, spelled, bind_eq_error_iff.mpr (.inl refused)⟩
      · rintro ⟨token, spelled, rest⟩
        refine ⟨⟨token, spelled⟩, (bind_eq_error_iff.mp rest).resolve_right ?_⟩
        rintro ⟨_, _, ends⟩
        cases ends

end Section

namespace Definition

/-- The mount, if there is one, can be spelled. -/
def MountNormalizes (definition : Definition) : Prop :=
  ∀ raw, definition.mount = some raw → ∃ mount, Name.normalizeMount raw = .ok mount

/-- Every name in the sections has a token. -/
def SectionsNormalize (definition : Definition) : Prop :=
  ∀ part ∈ definition.sections, part.NamesNormalize

/-- The mount is refused. -/
def RefusesMount (definition : Definition) (fault : InvalidName) : Prop :=
  ∃ raw, definition.mount = some raw ∧ Name.normalizeMount raw = .error fault

/-- The first section with a name that has no token is in a slot, and its first such name is the one
that a fault reports. -/
def RefusesSection (definition : Definition) (slot : Slot) (fault : InvalidName) : Prop :=
  ∃ before part after, definition.sections = before ++ part :: after ∧
    (∀ earlier ∈ before, earlier.NamesNormalize) ∧ slot = part.kind ∧ part.Refuses fault

variable {definition : Definition} {fault : Fault}

theorem mountNormalizes_iff :
    (∃ mount, definition.mount.mapM Name.normalizeMount = .ok mount) ↔
      definition.MountNormalizes := by
  simp only [optional_mapM_eq_ok_iff, MountNormalizes]
  cases definition.mount with
  | none => simp
  | some raw => simp

theorem sectionsNormalize_iff (style : NounStyle) :
    (∃ sections, (definition.sections.mapM fun part =>
      (part.normalize style).mapError fun fault =>
        Fault.inSection part.kind (.invalidName fault)) = .ok sections) ↔
      definition.SectionsNormalize := by
  simp only [exists_mapM_eq_ok_iff, mapError_eq_ok_iff,
    Section.exists_normalize_iff_namesNormalize, SectionsNormalize]

theorem refusesSection_iff {style : NounStyle} :
    (definition.sections.mapM fun part =>
      (part.normalize style).mapError fun fault =>
        Fault.inSection part.kind (.invalidName fault)) = .error fault ↔
      ∃ slot cause, definition.RefusesSection slot cause ∧
        fault = .inSection slot (.invalidName cause) := by
  simp only [mapM_eq_error_iff, mapError_eq_ok_iff, mapError_eq_error_iff,
    Section.exists_normalize_iff_namesNormalize, Section.normalize_eq_error_iff]
  constructor
  · rintro ⟨before, part, after, split, passed, cause, refused, rfl⟩
    exact ⟨part.kind, cause, ⟨before, part, after, split, passed, rfl, refused⟩, rfl⟩
  · rintro ⟨_, cause, ⟨before, part, after, split, passed, rfl, refused⟩, rfl⟩
    exact ⟨before, part, after, split, passed, cause, refused, rfl⟩

/-- The mount is read first, then the sections in order, and the module id last. -/
theorem normalize_eq_error_iff :
    definition.normalize = .error fault ↔
      (∃ cause, definition.RefusesMount cause ∧ fault = .invalidName cause) ∨
      definition.MountNormalizes ∧
        ((∃ slot cause, definition.RefusesSection slot cause ∧
            fault = .inSection slot (.invalidName cause)) ∨
          definition.SectionsNormalize ∧ ∃ cause,
            Name.normalize definition.moduleId = .error cause ∧ fault = .invalidName cause) := by
  have mount : (definition.mount.mapM Name.normalizeMount).mapError Fault.invalidName =
      .error fault ↔ ∃ cause, definition.RefusesMount cause ∧ fault = .invalidName cause := by
    simp only [mapError_eq_error_iff, optional_mapM_eq_error_iff, RefusesMount]
  have ending : ∀ (moduleId : Except Fault String) (finish : String → Definition),
      (moduleId >>= fun name => pure (finish name)) = .error fault ↔ moduleId = .error fault := by
    intro moduleId finish
    rw [bind_eq_error_iff]
    exact or_iff_left fun ⟨_, _, ends⟩ => by cases ends
  unfold Definition.normalize
  rw [bind_eq_error_iff, mount, ← mountNormalizes_iff, ← refusesSection_iff,
    ← sectionsNormalize_iff definition.nounStyle]
  refine or_congr_right ?_
  simp only [mapError_eq_ok_iff, bind_eq_error_iff, ending, mapError_eq_error_iff]
  constructor
  · rintro ⟨mount, mounted, refused | ⟨sections, each, refused⟩⟩
    · exact ⟨⟨mount, mounted⟩, .inl refused⟩
    · exact ⟨⟨mount, mounted⟩, .inr ⟨⟨sections, each⟩, refused⟩⟩
  · rintro ⟨⟨mount, mounted⟩, refused | ⟨⟨sections, each⟩, refused⟩⟩
    · exact ⟨mount, mounted, .inl refused⟩
    · exact ⟨mount, mounted, .inr ⟨sections, each, refused⟩⟩

end Definition

end ModuleRoutes
