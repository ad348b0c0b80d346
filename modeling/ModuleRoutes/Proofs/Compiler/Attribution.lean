import ModuleRoutes.Compiler
import ModuleRoutes.Proofs.Definition.Refusal
import ModuleRoutes.Proofs.Definition.Slots
import ModuleRoutes.Proofs.Section.Faults

/-!
# What a refused definition is told

A definition that is not compiled is refused with a fault of its module, and the fault within says
which part of it was read first among those that cannot stand
(`ModuleRoutes.Compiler.attributed_of_compile`): a name in the order of reading, wrapped in its
section unless it is part of the mount or the module id, and the shape of the definition only once
every name has a token.
-/

namespace ModuleRoutes

open Outcome

namespace Fault

/-- A fault that says where another one was found. -/
def IsWrapper : Fault → Prop
  | .inSection .. | .inModule .. => True
  | _ => False

/-- The innermost fault is no wrapper. -/
theorem not_isWrapper_root (fault : Fault) : ¬fault.root.IsWrapper := by
  induction fault with
  | inSection slot source ih => exact ih
  | inModule moduleId source ih => exact ih
  | _ => exact id

end Fault

namespace Definition

/-- A definition is refused with a fault of the part that it lies in. A bare name is one of the
mount, or the module id when everything before it can be spelled; a name in a section is the first
one of the first section that has any, and stands within the slot of the section; any other fault
is found once all names have tokens. -/
structure Attributes (definition : Definition) (source : Fault) : Prop where
  invalidName_iff : ∀ cause, source = .invalidName cause ↔
    definition.RefusesMount cause ∨ definition.MountNormalizes ∧ definition.SectionsNormalize ∧
      Name.normalize definition.moduleId = .error cause
  inSection_iff : ∀ slot inner, source = .inSection slot inner ↔
    definition.MountNormalizes ∧ ∃ cause, definition.RefusesSection slot cause ∧
      inner = .invalidName cause
  exists_inSection_iff : (∃ slot inner, source = .inSection slot inner) ↔
    definition.MountNormalizes ∧ ¬definition.SectionsNormalize
  normalizes : (∀ cause, source ≠ .invalidName cause) →
    (∀ slot inner, source ≠ .inSection slot inner) →
    source.IsOfShape ∧ ∃ normal, definition.normalize = .ok normal
  notInModule : ∀ moduleId inner, source ≠ .inModule moduleId inner

variable {definition : Definition} {source : Fault}

theorem not_sectionsNormalize_iff :
    ¬definition.SectionsNormalize ↔ ∃ slot cause, definition.RefusesSection slot cause := by
  rw [← sectionsNormalize_iff definition.nounStyle, not_eq_ok_iff]
  simp only [refusesSection_iff]
  exact ⟨fun ⟨_, slot, cause, refused, _⟩ => ⟨slot, cause, refused⟩,
    fun ⟨slot, cause, refused⟩ => ⟨_, slot, cause, refused, rfl⟩⟩

/-- The fault of a definition without a normal form lies where its names are read first. -/
theorem attributes_of_normalize (refused : definition.normalize = .error source) :
    definition.Attributes source := by
  have exact_iff : ∀ fault, source = fault ↔ definition.normalize = .error fault := by
    intro fault
    rw [refused, Except.error.injEq]
  have bare : ∀ cause, source = .invalidName cause ↔
      definition.RefusesMount cause ∨ definition.MountNormalizes ∧ definition.SectionsNormalize ∧
        Name.normalize definition.moduleId = .error cause := by
    intro cause
    rw [exact_iff, normalize_eq_error_iff]
    simp
  have wrapped : ∀ slot inner, source = .inSection slot inner ↔
      definition.MountNormalizes ∧ ∃ cause, definition.RefusesSection slot cause ∧
        inner = .invalidName cause := by
    intro slot inner
    rw [exact_iff, normalize_eq_error_iff]
    simp
  refine ⟨bare, wrapped, ?_, ?_, ?_⟩
  · rw [not_sectionsNormalize_iff]
    simp only [wrapped]
    exact ⟨fun ⟨slot, _, mounts, cause, refused, _⟩ => ⟨mounts, slot, cause, refused⟩,
      fun ⟨mounts, slot, cause, refused⟩ => ⟨slot, _, mounts, cause, refused, rfl⟩⟩
  · intro unnamed unwrapped
    rcases normalize_eq_error_iff.mp refused with
      ⟨cause, _, same⟩ | ⟨_, ⟨slot, cause, _, same⟩ | ⟨_, cause, _, same⟩⟩
    · exact absurd same (unnamed cause)
    · exact absurd same (unwrapped slot _)
    · exact absurd same (unnamed cause)
  · intro moduleId inner same
    rw [exact_iff, normalize_eq_error_iff] at same
    simp at same

theorem attributes_of_isOfShape {normal : Definition}
    (normalized : definition.normalize = .ok normal) (shape : source.IsOfShape) :
    definition.Attributes source := by
  have passed : ∀ fault, definition.normalize ≠ .error fault := by
    intro fault refused
    rw [normalized] at refused
    cases refused
  have unnamed : ∀ cause, source ≠ .invalidName cause := by
    rintro cause rfl
    exact shape
  have unwrapped : ∀ slot inner, source ≠ .inSection slot inner := by
    rintro slot inner rfl
    exact shape
  have mounts : ∀ cause, ¬definition.RefusesMount cause := fun cause refused =>
    passed _ (normalize_eq_error_iff.mpr (.inl ⟨cause, refused, rfl⟩))
  have parts : definition.MountNormalizes → ∀ slot cause, ¬definition.RefusesSection slot cause :=
    fun mounts slot cause refused =>
      passed _ (normalize_eq_error_iff.mpr (.inr ⟨mounts, .inl ⟨slot, cause, refused, rfl⟩⟩))
  refine ⟨fun cause => ?_, fun slot inner => ?_, ?_, fun _ _ => ⟨shape, normal, normalized⟩, ?_⟩
  · refine iff_of_false (unnamed cause) ?_
    rintro (refused | ⟨spelled, sections, refused⟩)
    · exact mounts cause refused
    · exact passed _
        (normalize_eq_error_iff.mpr (.inr ⟨spelled, .inr ⟨sections, cause, refused, rfl⟩⟩))
  · exact iff_of_false (unwrapped slot inner) fun ⟨spelled, cause, refused, _⟩ =>
      parts spelled slot cause refused
  · refine iff_of_false (fun ⟨slot, inner, same⟩ => unwrapped slot inner same) ?_
    rintro ⟨spelled, sections⟩
    obtain ⟨slot, cause, refused⟩ := not_sectionsNormalize_iff.mp sections
    exact parts spelled slot cause refused
  · rintro moduleId inner rfl
    exact shape

/-- A fault that lies in a part of a definition gets the name of the module around it. -/
theorem within_of_attributes {moduleId : String} (attributes : definition.Attributes source) :
    source.within moduleId = .inModule moduleId source := by
  cases source with
  | inModule other inner => exact absurd rfl (attributes.notInModule other inner)
  | unboundHandler other keys => exact (attributes.normalizes nofun nofun).1.elim
  | _ => rfl

end Definition

namespace Compiler

variable {compiler : Compiler} {definition : Definition} {source : Fault}

theorem failsWithin_slotRoutes (definition : Definition) :
    FailsWithin Fault.IsOfShape (slotRoutes definition) := by
  refine (FailsWithin.mapM fun slot => ?_).bind fun _ => failsWithin_ok _
  split
  · exact Section.failsWithin_routes
  · exact failsWithin_error trivial

/-- A definition is refused for the names that have no normal form, or else for the shape of its
normal form. -/
theorem compileBare_eq_error (refused : compiler.compileBare definition = .error source) :
    definition.normalize = .error source ∨
      (∃ normal, definition.normalize = .ok normal) ∧ source.IsOfShape := by
  rcases bind_eq_error_iff.mp refused with named | ⟨normal, normalized, later⟩
  · exact .inl named
  · refine .inr ⟨⟨normal, normalized⟩, ?_⟩
    refine ((Definition.failsWithin_validateSlots normal).bind fun _ => ?_) source later
    refine (failsWithin_slotRoutes normal).bind fun routes => ?_
    split
    · exact failsWithin_error trivial
    · exact failsWithin_ok _

/-- **Attribution.** A definition that is not compiled is refused with a fault of its module, under
the token of its id or else the id as it is written. What stands within says which part of the
definition it lies in, and the innermost fault is no wrapper. -/
theorem attributed_of_compile (compiler : Compiler) {definition : Definition} {fault : Fault}
    (refused : compiler.compile definition = .error fault) :
    ∃ moduleId source, fault = .inModule moduleId source ∧
      (∀ token, Name.normalize definition.moduleId = .ok token → moduleId = token) ∧
      (¬Name.Normalizes definition.moduleId → moduleId = definition.moduleId) ∧
      definition.Attributes source ∧ ¬fault.root.IsWrapper := by
  obtain ⟨source, bare, rfl⟩ := mapError_eq_error_iff.mp refused
  have attributes : definition.Attributes source := by
    rcases compileBare_eq_error bare with named | ⟨⟨normal, normalized⟩, shape⟩
    · exact Definition.attributes_of_normalize named
    · exact Definition.attributes_of_isOfShape normalized shape
  refine ⟨faultModuleId definition, source, Definition.within_of_attributes attributes, ?_, ?_,
    attributes, Fault.not_isWrapper_root _⟩
  · intro token spelled
    rw [faultModuleId, spelled]
  · intro refused
    unfold faultModuleId
    split
    · next token spelled => exact absurd ⟨token, spelled⟩ refused
    · rfl

/-- A definition whose id and some of whose names are none: the second and the third action of one
section, and the noun of the section after it. -/
def misspelled : Definition :=
  { (Definition.template "seo.optimizer" "listings" "keywords" "audit/s").withActions
      .secondaryResourceA
      [.plain .get "index", .onItem .get "show/one", .plain .post "", .onItem .put "edit"] with
    mount := some "/api//Seller Hub/" }

theorem attributed_misspelled : ∃ fault, default.compile misspelled = .error fault ∧
    ∃ moduleId source, fault = .inModule moduleId source ∧
      (∀ token, Name.normalize misspelled.moduleId = .ok token → moduleId = token) ∧
      (¬Name.Normalizes misspelled.moduleId → moduleId = misspelled.moduleId) ∧
      misspelled.Attributes source ∧ ¬fault.root.IsWrapper := by
  have refused : default.compile misspelled = .error (.inModule "seo.optimizer"
      (.inSection .secondaryResourceA (.invalidName ⟨"show/one", .foreign '/'⟩))) := by
    decide +kernel
  exact ⟨_, refused, attributed_of_compile default refused⟩

end Compiler

end ModuleRoutes
