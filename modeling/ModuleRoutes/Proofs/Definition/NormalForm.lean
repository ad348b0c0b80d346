import ModuleRoutes.Compiler
import ModuleRoutes.Proofs.Definition.Normalize
import ModuleRoutes.Proofs.Definition.Slots
import ModuleRoutes.Proofs.Name.Plural
import ModuleRoutes.Proofs.Section.Conventions

/-!
# Normal forms

A normal form is its own normal form: tokens and plurals stay as they are, and an action that is
named by an alias once the section is normalized has a verb of that name beside it, or not the shape
of the verb. So a definition and its normal form are compiled to the same table, or refused with the
same fault (`ModuleRoutes.Definition.compile_normalize`).
-/

namespace ModuleRoutes

namespace Verb

/-- The name of a verb is no other name of one. -/
theorem canonicalActionFor_text (verb : Verb) (method : Method) (needsId : Bool) :
    canonicalActionFor verb.text method needsId = verb.text := by
  cases verb <;> rfl

/-- An action keeps its name or takes that of a verb. -/
theorem canonicalActionFor_cases (name : String) (method : Method) (needsId : Bool) :
    canonicalActionFor name method needsId = name ∨
      ∃ verb : Verb, canonicalActionFor name method needsId = verb.text := by
  unfold canonicalActionFor
  split
  · next verb _ =>
    split
    · exact Or.inr ⟨verb, rfl⟩
    · exact Or.inl rfl
  · exact Or.inl rfl

theorem canonicalActionFor_idem (name : String) (method : Method) (needsId : Bool) :
    canonicalActionFor (canonicalActionFor name method needsId) method needsId =
      canonicalActionFor name method needsId := by
  rcases canonicalActionFor_cases name method needsId with kept | ⟨verb, taken⟩
  · rw [kept, kept]
  · rw [taken, canonicalActionFor_text]

end Verb

namespace Name

theorem mapM_normalize_of_isToken {tokens : List String}
    (each : ∀ token ∈ tokens, IsToken token) : tokens.mapM normalize = .ok tokens :=
  Outcome.mapM_eq_ok_iff.mpr (List.forall₂_same.mpr fun token member =>
    normalize_eq_self_iff.mpr (each token member))

/-- A mount that a text spells spells itself. -/
theorem normalizeMount_of_normalizeMount {raw mount : String}
    (spelled : normalizeMount raw = .ok mount) : normalizeMount mount = .ok mount := by
  obtain ⟨tokens, rfl, nonempty, areTokens⟩ := exists_tokens_of_normalizeMount spelled
  have segments : Text.segments '/' ("/" ++ Text.joined "/" tokens) = tokens :=
    Text.segments_path (fun token member => (areTokens token member).slash_not_mem)
      (fun token member empty => (areTokens token member).toList_ne_nil (by rw [empty]; rfl))
      nonempty
  refine normalizeMount_eq_ok_iff.mpr ⟨tokens, ?_, nonempty, rfl⟩
  rw [segments]
  exact mapM_normalize_of_isToken areTokens

end Name

namespace Section

variable {style : NounStyle} {part normal : Section}

theorem normalNoun_of_normalNoun {raw noun : String} (spelled : normalNoun style raw = .ok noun) :
    normalNoun style noun = .ok noun := by
  have isToken := isToken_normalNoun spelled
  obtain ⟨token, normal, rfl⟩ := normalNoun_eq_ok_iff.mp spelled
  refine normalNoun_eq_ok_iff.mpr ⟨_, Name.normalize_eq_self_iff.mpr isToken, ?_⟩
  split
  · exact (Name.plural_plural (Name.isToken_of_normalize normal)).symm
  · rfl

/-- The name of an action with a name among the names of its section. -/
abbrev renamed (slot : Slot) (names : List String) (action : Action) (name : String) : Action :=
  { action with name := actionName slot names action name }

/-- A verb that a section declares stays where the section's actions are named. -/
theorem verb_mem_renamed {slot : Slot} {actions : List Action} {names : List String} {verb : Verb}
    (paired : actions.length = names.length) (declared : verb.text ∈ names) (all : List String) :
    verb.text ∈ (List.zipWith (renamed slot all) actions names).map Action.name := by
  induction actions generalizing names with
  | nil =>
      rw [List.length_nil, eq_comm, List.length_eq_zero_iff] at paired
      rw [paired] at declared
      cases declared
  | cons action actions ih =>
      cases names with
      | nil => cases declared
      | cons name names =>
          rw [List.zipWith_cons_cons, List.map_cons]
          rcases List.mem_cons.mp declared with rfl | later
          · refine List.mem_cons.mpr (Or.inl ?_)
            change verb.text = actionName slot all action verb.text
            simp only [actionName, Verb.canonicalActionFor_text]
            split
            · rw [if_neg (by simp)]
            · rfl
          · exact List.mem_cons_of_mem _ (ih (by simpa using paired) later)

/-- The name that an action takes among the names of its section it keeps among the names that the
actions then have, as these still hold every verb of the section. -/
theorem actionName_actionName {slot : Slot} {names after : List String} {action : Action}
    {name : String} (verbsStay : ∀ verb : Verb, verb.text ∈ names → verb.text ∈ after) :
    actionName slot after (renamed slot names action name) (actionName slot names action name) =
      actionName slot names action name := by
  by_cases resource : slot.isResource = true
  · simp only [actionName, if_pos resource]
    by_cases declared : Verb.canonicalActionFor name action.method action.needsId ≠ name ∧
        Verb.canonicalActionFor name action.method action.needsId ∈ names
    · -- The alias stays beside its verb, which is still there.
      obtain ⟨verb, taken⟩ :=
        (Verb.canonicalActionFor_cases name action.method action.needsId).resolve_left declared.1
      have stays := verbsStay verb (taken ▸ declared.2)
      rw [if_pos declared, if_pos ⟨declared.1, by rw [taken]; exact stays⟩]
    · rw [if_neg declared, Verb.canonicalActionFor_idem, if_neg (by simp)]
  · simp only [actionName, if_neg resource]

/-- The normal form of a section is its own normal form. -/
theorem normalize_of_normalize (normalized : part.normalize style = .ok normal) :
    normal.normalize style = .ok normal := by
  have tokens := (isNormal_of_normalize normalized).names
  obtain ⟨noun, names, spelled, each, rfl⟩ := normalize_eq_ok_iff.mp normalized
  have nounNormal : noun.mapM (normalNoun style) = .ok noun := by
    rcases Outcome.optional_mapM_eq_ok_iff.mp spelled with ⟨_, rfl⟩ | ⟨raw, value, _, atRaw, rfl⟩
    · rfl
    · exact Outcome.optional_mapM_eq_ok_iff.mpr
        (Or.inr ⟨value, value, rfl, normalNoun_of_normalNoun atRaw, rfl⟩)
  have paired : part.actions.length = names.length :=
    (Outcome.mapM_eq_ok_iff.mp each).length_eq
  generalize named : List.zipWith (renamed part.kind names) part.actions names = actions at tokens
  have namesNormal : (actions.mapM fun action => Name.normalize action.name) =
      .ok (actions.map Action.name) := by
    refine Outcome.mapM_eq_ok_iff.mpr ?_
    rw [List.forall₂_map_right_iff, List.forall₂_same]
    exact fun action member => Name.normalize_eq_self_iff.mpr (tokens action member)
  have verbsStay : ∀ verb : Verb, verb.text ∈ names → verb.text ∈ actions.map Action.name := by
    intro verb declared
    rw [← named]
    exact verb_mem_renamed paired declared names
  have keep : ∀ action ∈ actions,
      renamed part.kind (actions.map Action.name) action action.name = action := by
    intro action member
    rw [← named, ← List.map_uncurry_zip_eq_zipWith] at member
    obtain ⟨⟨original, name⟩, _, rfl⟩ := List.mem_map.mp member
    exact congrArg (fun name => { original with name := name }) (actionName_actionName verbsStay)
  have unchanged : List.zipWith (renamed part.kind (actions.map Action.name)) actions
      (actions.map Action.name) = actions := by
    rw [List.zipWith_map_right, List.zipWith_self, List.map_congr_left keep, List.map_id']
  exact normalize_eq_ok_iff.mpr ⟨noun, actions.map Action.name, nounNormal, namesNormal,
    congrArg (Section.mk part.kind noun part.idStyle) unchanged.symm⟩

end Section

namespace Definition

variable {definition normal : Definition}

/-- The normal form of a definition is its own normal form. -/
theorem normalize_of_normalize (normalized : definition.normalize = .ok normal) :
    normal.normalize = .ok normal := by
  obtain ⟨mount, sections, moduleId, mounted, each, named, rfl⟩ :=
    normalize_eq_ok_iff.mp normalized
  refine normalize_eq_ok_iff.mpr ⟨mount, sections, moduleId, ?_, ?_, ?_, rfl⟩
  · rcases Outcome.optional_mapM_eq_ok_iff.mp mounted with ⟨_, rfl⟩ | ⟨raw, value, _, spelled, rfl⟩
    · rfl
    · exact Outcome.optional_mapM_eq_ok_iff.mpr
        (Or.inr ⟨value, value, rfl, Name.normalizeMount_of_normalizeMount spelled, rfl⟩)
  · rw [List.forall₂_same]
    intro part member
    obtain ⟨_, _, atPart⟩ := Places.exists_of_mem_forall₂ each member
    exact Section.normalize_of_normalize atPart
  · exact Name.normalize_eq_self_iff.mpr (Name.isToken_of_normalize named)

/-- A definition with a normal form and the normal form give faults the same module. -/
theorem faultModuleId_of_normalize (normalized : definition.normalize = .ok normal) :
    Compiler.faultModuleId definition = normal.moduleId := by
  obtain ⟨_, _, moduleId, _, _, named, rfl⟩ := normalize_eq_ok_iff.mp normalized
  rw [Compiler.faultModuleId, named]

/-- **Normal form.** The normal form of a definition is its own normal form, and whatever the
compiler's prefix it is compiled to what the definition is compiled to: the same table, or the same
fault within the same module. -/
theorem compile_normalize (normalized : definition.normalize = .ok normal) :
    normal.normalize = .ok normal ∧
      ∀ compiler : Compiler, compiler.compile normal = compiler.compile definition := by
  have again := normalize_of_normalize normalized
  refine ⟨again, fun compiler => ?_⟩
  have bare : compiler.compileBare normal = compiler.compileBare definition := by
    unfold Compiler.compileBare
    rw [normalized, again]
  rw [Compiler.compile, Compiler.compile, bare, faultModuleId_of_normalize normalized,
    faultModuleId_of_normalize again]

/-- A definition with names in many spellings. Its first resource has aliases that become verbs, an
alias beside its verb, and one without the shape of its verb. -/
def aliased : Definition :=
  { (template "Seller Hub" "Price Category" "box" "glass").withActions .primaryResource
      [.plain .get "all", .onItem .get "Show", .plain .post "add", .onItem .put "edit",
        .plain .get "List", .onItem .put "read"] with
    mount := some "API//Seller Hub/"
    nounStyle := .plural }

theorem compile_normalize_aliased : ∃ normal, aliased.normalize = .ok normal ∧
    normal.normalize = .ok normal ∧
      ∀ compiler : Compiler, compiler.compile normal = compiler.compile aliased := by
  obtain ⟨normal, normalized⟩ :=
    Outcome.exists_eq_ok (by decide +kernel : aliased.normalize.isOk = true)
  exact ⟨normal, normalized, compile_normalize normalized⟩

end Definition

end ModuleRoutes
