import ModuleRoutes.Proofs.Compiler.Collisions
import ModuleRoutes.Proofs.Definition.Refusal

/-!
# Templates

Sections whose paths begin with different segments do not collide
(`ModuleRoutes.Definition.nodup_endpoints_of_roots`). The other sections of a template leave seven
words as no nouns for its resources, so a template is compiled exactly when its four names have
tokens and its nouns are different and none of these words
(`ModuleRoutes.Compiler.compile_template`).
-/

namespace ModuleRoutes

namespace Section

/-- The first segments of the paths of a section. -/
def roots (part : Section) : List String :=
  match part.kind.kind with
  | .dashboard => ["dashboard"]
  | .resource => part.resourceName.toList
  | .analytics => ["analytics"]
  | .settings => ["settings"]
  | .utilities => part.actions.map Action.name

/-- A section without the name of its resource. -/
def nounless (part : Section) : Section := { part with resourceName := none }

variable {part normal : Section} {action : Action} {style : NounStyle} {noun : String}

theorem exists_head?_partsAt (named : part.kind.isResource = true → part.resourceName.isSome)
    (member : action ∈ part.actions) (index : Nat) :
    ∃ root ∈ part.roots, (part.partsAt index action).head? = some root := by
  unfold partsAt roots
  cases kind : part.kind.kind with
  | dashboard => exact ⟨_, List.mem_singleton_self _, by dsimp only; split <;> rfl⟩
  | resource =>
      obtain ⟨noun, given⟩ := Option.isSome_iff_exists.mp
        (named (by simp [Slot.isResource, kind]))
      refine ⟨noun, by simp [given], ?_⟩
      change (part.resourceParts action).head? = some noun
      unfold resourceParts
      rw [given, Option.getD_some]
      repeat' split
      all_goals rfl
  | analytics => exact ⟨_, List.mem_singleton_self _, by dsimp only; split <;> rfl⟩
  | settings => exact ⟨_, List.mem_singleton_self _, rfl⟩
  | utilities => exact ⟨_, List.mem_map_of_mem member, rfl⟩

/-- The paths of a section in normal form begin with its roots. -/
theorem exists_root_of_mem_endpoints (normal : part.IsNormal)
    (named : part.kind.isResource = true → part.resourceName.isSome)
    {endpoint : String × Method} (member : endpoint ∈ part.endpoints) :
    ∃ root ∈ part.roots, (Text.segments '/' endpoint.1).head? = some root := by
  obtain ⟨index, inside, rfl⟩ := List.mem_mapIdx.mp member
  rw [segments_pathAt normal named (List.getElem_mem inside)]
  exact exists_head?_partsAt named (List.getElem_mem inside) index

/-- A verb that addresses no item is on the path of its resource. -/
theorem mem_endpoints_of_verb (verb : Verb) (kind : part.kind.kind = .resource)
    (given : part.resourceName = some noun) (collective : verb.needsId = false)
    (member : action ∈ part.actions) (spelled : action.name = verb.text) :
    ("/" ++ noun, action.method) ∈ part.endpoints := by
  obtain ⟨index, inside, rfl⟩ := List.mem_iff_getElem.mp member
  refine List.mem_mapIdx.mpr ⟨index, inside, Prod.ext ?_ rfl⟩
  simp only [pathAt, kind, resourcePath, Verb.ofText?_eq_some_iff.mpr spelled, verbPath_text,
    collective, given]
  rfl

/-- The noun of a section and its actions are normalized apart from each other. -/
theorem normalize_of_nounless (spelled : part.resourceName.mapM (normalNoun style) =
      .ok normal.resourceName) (actions : part.nounless.normalize style = .ok normal.nounless) :
    part.normalize style = .ok normal := by
  obtain ⟨_, names, _, each, same⟩ := normalize_eq_ok_iff.mp actions
  refine normalize_eq_ok_iff.mpr ⟨normal.resourceName, names, spelled, each, ?_⟩
  cases normal
  cases same
  rfl

/-- The conventions do not ask for a noun. -/
theorem conventional_nounless_iff : part.nounless.Conventional ↔ part.Conventional :=
  ⟨fun keeps => ⟨keeps.arity, keeps.distinctNames, keeps.patchFree, keeps.kindRule,
      keeps.primaryVerbs⟩,
    fun keeps => ⟨keeps.arity, keeps.distinctNames, keeps.patchFree, keeps.kindRule,
      keeps.primaryVerbs⟩⟩

end Section

namespace Fault

theorem root_within (moduleId : String) (fault : Fault) :
    (fault.within moduleId).root = fault.root := by
  cases fault <;> rfl

end Fault

namespace Definition

variable {definition normal : Definition}

/-- Sections in normal form whose paths begin with different segments do not collide. -/
theorem nodup_endpoints_of_roots (filled : normal.SlotsFilled)
    (keeps : ∀ part ∈ normal.sections, part.Conventional)
    (tokens : ∀ part ∈ normal.sections, part.IsNormal)
    (apart : (normal.sections.flatMap Section.roots).Nodup) : normal.endpoints.Nodup := by
  rw [endpoints, List.nodup_flatMap]
  refine ⟨fun part member => Section.nodup_endpoints (keeps part member) (tokens part member)
    (filled.noun_isSome member), ?_⟩
  refine (List.nodup_flatMap.mp apart).2.imp_of_mem fun {part other} member otherMember roots => ?_
  intro endpoint inPart inOther
  obtain ⟨root, inRoots, begins⟩ := Section.exists_root_of_mem_endpoints (tokens part member)
    (filled.noun_isSome member) inPart
  obtain ⟨otherRoot, inOtherRoots, otherBegins⟩ := Section.exists_root_of_mem_endpoints
    (tokens other otherMember) (filled.noun_isSome otherMember) inOther
  obtain rfl := Option.some.inj (begins.symm.trans otherBegins)
  exact roots inRoots inOtherRoots

/-- Where no name can be spelled, the innermost fault is about the name. -/
theorem root_of_normalize_eq_error {fault : Fault} (refused : definition.normalize = .error fault) :
    ∃ cause, fault.root = .invalidName cause := by
  rcases normalize_eq_error_iff.mp refused with
    ⟨cause, _, rfl⟩ | ⟨_, ⟨_, cause, _, rfl⟩ | ⟨_, cause, _, rfl⟩⟩
  · exact ⟨cause, rfl⟩
  · exact ⟨cause, rfl⟩
  · exact ⟨cause, rfl⟩

theorem generates_blockOf (filled : normal.SlotsFilled)
    (keeps : ∀ part ∈ normal.sections, part.Conventional) : normal.Generates normal.blockOf := by
  intro slot
  obtain ⟨part, found⟩ := filled.exists_findSection? slot
  have member := (filled.findSection?_eq_some_iff.mp found).1
  refine ⟨part, found, (Section.routes_eq_ok_iff (filled.noun_isSome member)).mpr
    ⟨keeps part member, ?_⟩⟩
  rw [blockOf, found]

/-- The sections of a definition in resource slots. -/
def resources (definition : Definition) : List Section :=
  definition.sections.filter fun part => part.kind.isResource

/-- The other sections of a definition. -/
def others (definition : Definition) : List Section :=
  definition.sections.filter fun part => !part.kind.isResource

theorem sections_perm : definition.sections.Perm (definition.resources ++ definition.others) :=
  (List.filter_append_perm _ _).symm

/-! ## Templates -/

/-- The first segments of the paths that every template has. -/
def reservedNouns : List String :=
  ["dashboard", "analytics", "settings", "health", "export", "import", "sync"]

variable {moduleId primary secondaryA secondaryB : String}

theorem others_template :
    (template moduleId primary secondaryA secondaryB).others = (template "m" "a" "b" "c").others :=
  rfl

theorem exists_mem_resources {noun : String} (member : noun ∈ [primary, secondaryA, secondaryB]) :
    ∃ part ∈ (template moduleId primary secondaryA secondaryB).resources,
      part.resourceName = some noun := by
  have named : some noun ∈ (template moduleId primary secondaryA secondaryB).resources.map
      Section.resourceName := List.mem_map_of_mem (f := some) member
  exact List.mem_map.mp named

theorem roots_template_perm :
    ((template moduleId primary secondaryA secondaryB).sections.flatMap Section.roots).Perm
      ([primary, secondaryA, secondaryB] ++ reservedNouns) :=
  sections_perm.flatMap_right _

/-- Whatever its names, a template fills its slots. -/
theorem slotsFilled_template (moduleId primary secondaryA secondaryB : String) :
    (template moduleId primary secondaryA secondaryB).SlotsFilled := by
  have plain : (template "m" "a" "b" "c").SlotsFilled :=
    validateSlots_eq_ok_iff.mp (by decide +kernel)
  have same : ((template moduleId primary secondaryA secondaryB).sections.map fun part =>
      (part.kind, part.resourceName.isSome)) =
        (template "m" "a" "b" "c").sections.map fun part =>
          (part.kind, part.resourceName.isSome) := rfl
  exact (slotsFilled_congr same).mpr plain

/-- Whatever its names, a template keeps the conventions of its sections. -/
theorem conventional_template (moduleId primary secondaryA secondaryB : String) :
    ∀ part ∈ (template moduleId primary secondaryA secondaryB).sections, part.Conventional := by
  obtain ⟨routes, generated⟩ := Outcome.exists_eq_ok
    (by decide +kernel : (Compiler.slotRoutes (template "m" "a" "b" "c")).isOk = true)
  have plain := ((Compiler.slotRoutes_eq_ok_iff (slotsFilled_template "m" "a" "b" "c")).mp
    generated).1
  have same : (template moduleId primary secondaryA secondaryB).sections.map Section.nounless =
      (template "m" "a" "b" "c").sections.map Section.nounless := rfl
  have nounless : ∀ part ∈ (template moduleId primary secondaryA secondaryB).sections.map
      Section.nounless, part.Conventional := by
    rw [same]
    exact List.forall_mem_map.mpr fun part member =>
      Section.conventional_nounless_iff.mpr (plain part member)
  exact fun part member =>
    Section.conventional_nounless_iff.mp (nounless _ (List.mem_map_of_mem member))

/-- The normal form of a template is the template of its tokens. -/
theorem normalize_template {id first second third : String}
    (module : Name.normalize moduleId = .ok id) (primaryNoun : Name.normalize primary = .ok first)
    (nounA : Name.normalize secondaryA = .ok second)
    (nounB : Name.normalize secondaryB = .ok third) :
    (template moduleId primary secondaryA secondaryB).normalize =
      .ok (template id first second third) := by
  have resource : ∀ {raw noun : String} {slot : Slot} {actions : List Action},
      Name.normalize raw = .ok noun →
      (⟨slot, none, .pathParam, actions⟩ : Section).normalize .asWritten =
        .ok ⟨slot, none, .pathParam, actions⟩ →
      (⟨slot, some raw, .pathParam, actions⟩ : Section).normalize .asWritten =
        .ok ⟨slot, some noun, .pathParam, actions⟩ := by
    intro raw noun slot actions spelled kept
    have named : (some raw).mapM (Section.normalNoun .asWritten) = .ok (some noun) :=
      Outcome.optional_mapM_eq_ok_iff.mpr
        (.inr ⟨raw, noun, rfl, Section.normalNoun_eq_ok_iff.mpr ⟨noun, spelled, rfl⟩, rfl⟩)
    exact Section.normalize_of_nounless named kept
  have others : ∀ part ∈ (template "m" "a" "b" "c").others,
      part.normalize .asWritten = .ok part := by decide +kernel
  refine normalize_eq_ok_iff.mpr ⟨none, (template id first second third).sections, id, rfl, ?_,
    module, rfl⟩
  exact .cons (others _ (by decide)) (.cons (resource primaryNoun (by decide +kernel))
    (.cons (resource nounA (by decide +kernel)) (.cons (resource nounB (by decide +kernel))
      (.cons (others _ (by decide)) (.cons (others _ (by decide))
        (.cons (others _ (by decide)) .nil))))))

theorem namesNormalize_template_iff :
    (template moduleId primary secondaryA secondaryB).NamesNormalize ↔
      ∀ raw ∈ [moduleId, primary, secondaryA, secondaryB], Name.Normalizes raw := by
  constructor
  · intro spelled
    refine List.forall_mem_cons.mpr ⟨spelled.moduleId, fun raw member => ?_⟩
    obtain ⟨part, inResources, given⟩ := exists_mem_resources member
    exact spelled.nouns part (List.mem_of_mem_filter inResources) raw given
  · simp only [List.forall_mem_cons]
    rintro ⟨⟨_, module⟩, ⟨_, first⟩, ⟨_, second⟩, ⟨_, third⟩, _⟩
    exact exists_normalize_iff.mp ⟨_, normalize_template module first second third⟩

/-! ## The nouns of a template -/

/-- A resource of a template is listed and added to on the path of its noun. -/
theorem mem_endpoints_of_mem_resources {part : Section}
    (member : part ∈ (template moduleId primary secondaryA secondaryB).resources) :
    ∃ noun, part.resourceName = some noun ∧ ("/" ++ noun, .get) ∈ part.endpoints ∧
      ("/" ++ noun, .post) ∈ part.endpoints := by
  have shape : part.kind.kind = .resource ∧ part.resourceName.isSome = true ∧
      .plain .get "list" ∈ part.actions ∧ .plain .post "create" ∈ part.actions := by
    revert part
    simp [resources, template, templateVerbs, Slot.isResource, Slot.kind]
  obtain ⟨kind, named, listed, added⟩ := shape
  obtain ⟨noun, given⟩ := Option.isSome_iff_exists.mp named
  exact ⟨noun, given, Section.mem_endpoints_of_verb .list kind given rfl listed rfl,
    Section.mem_endpoints_of_verb .create kind given rfl added rfl⟩

/-- Two resources of a template collide on the path of one noun. -/
theorem nodup_nouns_of_nodup_endpoints
    (distinct : ((template moduleId primary secondaryA secondaryB).resources.flatMap
      Section.endpoints).Nodup) : [primary, secondaryA, secondaryB].Nodup := by
  have different : (template moduleId primary secondaryA secondaryB).resources.Pairwise
      fun part other => part.resourceName ≠ other.resourceName := by
    refine (List.nodup_flatMap.mp distinct).2.imp_of_mem ?_
    intro part other member otherMember disjoint same
    obtain ⟨noun, given, listed, _⟩ := mem_endpoints_of_mem_resources member
    obtain ⟨otherNoun, otherGiven, otherListed, _⟩ := mem_endpoints_of_mem_resources otherMember
    obtain rfl := Option.some.inj (given.symm.trans (same.trans otherGiven))
    exact disjoint listed otherListed
  have nouns : ((template moduleId primary secondaryA secondaryB).resources.map
      Section.resourceName).Nodup := List.pairwise_map.mpr different
  exact List.Nodup.of_map some nouns

/-- A resource of a template collides with another section on the path of a reserved word, where
the section has a route with `GET`, or else with `POST`. -/
theorem not_mem_reservedNouns_of_nodup_endpoints
    (distinct : (template moduleId primary secondaryA secondaryB).endpoints.Nodup) {noun : String}
    (member : noun ∈ [primary, secondaryA, secondaryB]) : noun ∉ reservedNouns := by
  have taken : ∀ word ∈ reservedNouns,
      ("/" ++ word, Method.get) ∈ (template "m" "a" "b" "c").others.flatMap Section.endpoints ∨
        ("/" ++ word, Method.post) ∈
          (template "m" "a" "b" "c").others.flatMap Section.endpoints := by
    decide +kernel
  intro reserved
  have split := (sections_perm.flatMap_right Section.endpoints).nodup_iff.mp distinct
  rw [List.flatMap_append, others_template, List.nodup_append] at split
  obtain ⟨-, -, apart⟩ := split
  obtain ⟨part, inResources, given⟩ := exists_mem_resources member
  obtain ⟨_, same, listed, added⟩ := mem_endpoints_of_mem_resources inResources
  obtain rfl := Option.some.inj (given.symm.trans same)
  rcases taken noun reserved with onGet | onPost
  · exact apart _ (List.mem_flatMap.mpr ⟨part, inResources, listed⟩) _ onGet rfl
  · exact apart _ (List.mem_flatMap.mpr ⟨part, inResources, added⟩) _ onPost rfl

/-- The nouns of a template in normal form have to be different, and none may begin a path of
another section. -/
theorem nodup_endpoints_template_iff (normalized :
      (template moduleId primary secondaryA secondaryB).normalize =
        .ok (template moduleId primary secondaryA secondaryB)) :
    (template moduleId primary secondaryA secondaryB).endpoints.Nodup ↔
      [primary, secondaryA, secondaryB].Nodup ∧
        ∀ noun ∈ [primary, secondaryA, secondaryB], noun ∉ reservedNouns := by
  constructor
  · intro distinct
    have split := (sections_perm.flatMap_right Section.endpoints).nodup_iff.mp distinct
    rw [List.flatMap_append, List.nodup_append] at split
    exact ⟨nodup_nouns_of_nodup_endpoints split.1,
      fun noun member => not_mem_reservedNouns_of_nodup_endpoints distinct member⟩
  · rintro ⟨distinct, unreserved⟩
    refine nodup_endpoints_of_roots (slotsFilled_template _ _ _ _) (conventional_template _ _ _ _)
      (tokens_of_normalize normalized).2 (roots_template_perm.nodup_iff.mpr ?_)
    rw [List.nodup_append]
    refine ⟨distinct, by decide, fun noun member other reserved same => ?_⟩
    exact unreserved noun member (same ▸ reserved)

/-- Nouns in any spelling that a template can give its resources: their tokens are different, and
none of them begins a path of another section. -/
def NounsFit (raws : List String) : Prop :=
  ∃ nouns, raws.mapM Name.normalize = .ok nouns ∧ nouns.Nodup ∧
    ∀ noun ∈ nouns, noun ∉ reservedNouns

theorem nounsFit_iff {raws nouns : List String} (spelled : raws.mapM Name.normalize = .ok nouns) :
    NounsFit raws ↔ nouns.Nodup ∧ ∀ noun ∈ nouns, noun ∉ reservedNouns := by
  constructor
  · rintro ⟨others, same, distinct, unreserved⟩
    obtain rfl := Except.ok.inj (spelled.symm.trans same)
    exact ⟨distinct, unreserved⟩
  · rintro ⟨distinct, unreserved⟩
    exact ⟨nouns, spelled, distinct, unreserved⟩

end Definition

namespace Compiler

open Definition

variable {definition normal : Definition}

theorem compile_of_normalize_eq_error (compiler : Compiler) {fault : Fault}
    (refused : definition.normalize = .error fault) :
    compiler.compile definition = .error (fault.within (faultModuleId definition)) := by
  rw [compile, compileBare, refused]
  rfl

/-- A definition whose normal form keeps every convention is compiled, or else refused with a
collision. -/
theorem compile_of_conventional (compiler : Compiler)
    (normalized : definition.normalize = .ok normal) (filled : normal.SlotsFilled)
    (keeps : ∀ part ∈ normal.sections, part.Conventional) :
    (normal.endpoints.Nodup ∧ ∃ table, compiler.compile definition = .ok table) ∨
      (¬normal.endpoints.Nodup ∧ ∃ first second, compiler.compile definition =
        .error (.inModule normal.moduleId (.routeCollision first second))) := by
  have outcome := compile_of_generates compiler normalized (validateSlots_eq_ok_iff.mpr filled)
    (generates_blockOf filled keeps)
  have clear : firstCollision? [] normal.layout = none ↔ normal.endpoints.Nodup := by
    rw [← (endpoints_perm filled keeps).nodup_iff, firstCollision?_eq_none_iff]
    simp
  have layout : Slot.all.flatMap normal.blockOf = normal.layout := rfl
  rw [← clear]
  rw [layout] at outcome
  cases collision : firstCollision? [] normal.layout with
  | none =>
      rw [collision] at outcome
      exact .inl ⟨rfl, _, outcome⟩
  | some pair =>
      rw [collision] at outcome
      exact .inr ⟨nofun, _, _, outcome⟩

/-- **Templates.** A template is compiled, whatever the compiler's prefix, exactly when its four
names have tokens and the tokens of its nouns are different and none of the reserved words. When its
names have tokens, it is otherwise refused with a collision; when one has none, it is refused for a
name. -/
theorem compile_template (compiler : Compiler) (moduleId primary secondaryA secondaryB : String) :
    ((∃ table, compiler.compile (template moduleId primary secondaryA secondaryB) = .ok table) ↔
      (∀ raw ∈ [moduleId, primary, secondaryA, secondaryB], Name.Normalizes raw) ∧
        NounsFit [primary, secondaryA, secondaryB]) ∧
    ((∃ fault first second,
        compiler.compile (template moduleId primary secondaryA secondaryB) = .error fault ∧
          fault.root = .routeCollision first second) ↔
      (∀ raw ∈ [moduleId, primary, secondaryA, secondaryB], Name.Normalizes raw) ∧
        ¬NounsFit [primary, secondaryA, secondaryB]) ∧
    ((∃ fault cause,
        compiler.compile (template moduleId primary secondaryA secondaryB) = .error fault ∧
          fault.root = .invalidName cause) ↔
      ¬∀ raw ∈ [moduleId, primary, secondaryA, secondaryB], Name.Normalizes raw) := by
  by_cases spelled : ∀ raw ∈ [moduleId, primary, secondaryA, secondaryB], Name.Normalizes raw
  · obtain ⟨⟨id, module⟩, ⟨first, nounP⟩, ⟨second, nounA⟩, ⟨third, nounB⟩, -⟩ :
        Name.Normalizes moduleId ∧ Name.Normalizes primary ∧ Name.Normalizes secondaryA ∧
          Name.Normalizes secondaryB ∧ ∀ raw ∈ ([] : List String), Name.Normalizes raw := by
      simpa only [List.forall_mem_cons] using spelled
    have normalized := normalize_template module nounP nounA nounB
    have nouns : [primary, secondaryA, secondaryB].mapM Name.normalize =
        .ok [first, second, third] :=
      Outcome.mapM_eq_ok_iff.mpr (.cons nounP (.cons nounA (.cons nounB .nil)))
    have fit : (template id first second third).endpoints.Nodup ↔
        NounsFit [primary, secondaryA, secondaryB] :=
      (nodup_endpoints_template_iff (normalize_of_normalize normalized)).trans
        (nounsFit_iff nouns).symm
    rcases compile_of_conventional compiler normalized (slotsFilled_template _ _ _ _)
        (conventional_template _ _ _ _) with
      ⟨distinct, table, outcome⟩ | ⟨collides, one, other, outcome⟩
    · simp [outcome, spelled, fit.mp distinct]
    · simp [outcome, spelled, fit.not.mp collides, Fault.root]
  · obtain ⟨fault, refused⟩ := Outcome.not_eq_ok_iff.mp
      (mt exists_normalize_iff.mp (mt namesNormalize_template_iff.mp spelled))
    obtain ⟨cause, about⟩ := root_of_normalize_eq_error refused
    have outcome := compile_of_normalize_eq_error compiler refused
    refine ⟨iff_of_false ?_ fun both => spelled both.1, iff_of_false ?_ fun both => spelled both.1,
      iff_of_true ⟨_, cause, outcome, (Fault.root_within _ fault).trans about⟩ spelled⟩
    · rintro ⟨table, compiled⟩
      cases outcome.symm.trans compiled
    · rintro ⟨_, one, other, failed, root⟩
      obtain rfl := Except.error.inj (outcome.symm.trans failed)
      rw [Fault.root_within, about] at root
      cases root

end Compiler

end ModuleRoutes
