import Mathlib.Data.List.Pairwise
import Mathlib.Tactic.TFAE
import ModuleRoutes.Proofs.Compiler.Layout
import ModuleRoutes.Proofs.Handler.Binding
import ModuleRoutes.Proofs.HandlerKey
import ModuleRoutes.Proofs.OpenApi

/-!
# When keys tell routes apart

A key names the module, the kind and the resource of a section and the action, but not the slot. So
the routes of a table have different keys exactly when no two of its resources with one noun share
an action name; placeholders, bindings and the ids of operations then have one entry for each route
(`ModuleRoutes.Compiler.keysApart_tfae_of_compile`). A definition may fail this and still be
compiled, since collisions are looked for among methods and paths only
(`ModuleRoutes.Compiler.keys_repeat_of_sharedNoun`).
-/

namespace ModuleRoutes

theorem isPart_of_isToken {token : String} (isToken : Name.IsToken token) :
    HandlerKey.IsPart token :=
  ⟨fun empty => isToken.toList_ne_nil (by rw [empty]; rfl), isToken.slash_not_mem⟩

namespace Section

/-- The keys of the actions of a section. -/
def handlerKeys (moduleId : String) (part : Section) : List HandlerKey :=
  part.actions.map fun action => ⟨moduleId, part.kind.kind, part.resourceName, action.name⟩

variable {moduleId : String} {part other : Section}

theorem layout_handlerKeys_perm (distinct : (part.actions.map Action.name).Nodup) :
    ((part.layout moduleId).map Route.handlerKey).Perm (part.handlerKeys moduleId) := by
  have keys : (part.layout moduleId).map Route.handlerKey = part.tableOrder.map fun action =>
      ⟨moduleId, part.kind.kind, part.resourceName, action.name⟩ := by
    rw [layout, Places.map_mapIdx]
    exact Places.mapIdx_eq_map fun _ _ => rfl
  rw [keys]
  exact (tableOrder_perm distinct).map _

theorem nodup_handlerKeys (distinct : (part.actions.map Action.name).Nodup) :
    (part.handlerKeys moduleId).Nodup := by
  refine List.Nodup.of_map HandlerKey.action ?_
  rw [handlerKeys, List.map_map]
  exact distinct

/-- Sections in different slots have different keys unless they are resources with one noun and an
action name in common. -/
theorem disjoint_handlerKeys_iff (different : part.kind ≠ other.kind)
    (noun : part.resourceName.isSome = part.kind.isResource)
    (otherNoun : other.resourceName.isSome = other.kind.isResource) :
    List.Disjoint (part.handlerKeys moduleId) (other.handlerKeys moduleId) ↔
      (part.kind.isResource = true → part.resourceName = other.resourceName →
        List.Disjoint (part.actions.map Action.name) (other.actions.map Action.name)) := by
  constructor
  · intro apart resource sameNoun name inPart inOther
    obtain ⟨action, member, named⟩ := List.mem_map.mp inPart
    obtain ⟨otherAction, otherMember, rfl⟩ := List.mem_map.mp inOther
    have otherResource : other.kind.isResource = true := by
      rw [← otherNoun, ← sameNoun, noun, resource]
    have kind : part.kind.kind = other.kind.kind := by
      simp only [Slot.isResource, decide_eq_true_eq] at resource otherResource
      rw [resource, otherResource]
    exact apart (List.mem_map.mpr ⟨action, member, rfl⟩)
      (List.mem_map.mpr ⟨otherAction, otherMember, by rw [kind, sameNoun, named]⟩)
  · intro apart key inPart inOther
    obtain ⟨action, member, rfl⟩ := List.mem_map.mp inPart
    obtain ⟨otherAction, otherMember, same⟩ := List.mem_map.mp inOther
    obtain ⟨-, kind, sameNoun, named⟩ := HandlerKey.mk.injEq .. ▸ same
    -- Only slots of resources come with others of their kind.
    exact apart (Slot.isResource_of_kind_eq different kind.symm) sameNoun.symm
      (List.mem_map.mpr ⟨action, member, rfl⟩) (List.mem_map.mpr ⟨otherAction, otherMember, named⟩)

end Section

namespace Definition

/-- Resources with one noun have no action name in common. -/
def NounsApart (normal : Definition) : Prop :=
  ∀ part ∈ normal.sections, ∀ other ∈ normal.sections, part.kind ≠ other.kind →
    part.kind.isResource = true → part.resourceName = other.resourceName →
      List.Disjoint (part.actions.map Action.name) (other.actions.map Action.name)

variable {normal : Definition}

/-- The keys of a layout are different when resources with one noun are apart. -/
theorem nodup_layout_handlerKeys_iff (filled : normal.SlotsFilled)
    (keeps : ∀ part ∈ normal.sections, part.Conventional) :
    (normal.layout.map Route.handlerKey).Nodup ↔ normal.NounsApart := by
  have keys := layout_map_perm filled fun part member =>
    Section.layout_handlerKeys_perm (keeps part member).distinctNames
  have kinds := List.pairwise_map.mp filled.nodup_kinds
  rw [keys.nodup_iff, List.nodup_flatMap]
  constructor
  · rintro ⟨_, apart⟩ part member other otherMember different
    have : Std.Symm (Function.onFun List.Disjoint (Section.handlerKeys normal.moduleId)) :=
      ⟨fun _ _ disjoint => disjoint.symm⟩
    refine (Section.disjoint_handlerKeys_iff different (filled.nouns part member)
      (filled.nouns other otherMember)).mp (apart.forall member otherMember ?_)
    exact fun same => different (congrArg Section.kind same)
  · intro apart
    refine ⟨fun part member => Section.nodup_handlerKeys (keeps part member).distinctNames, ?_⟩
    refine kinds.imp_of_mem fun {part other} member otherMember different => ?_
    exact (Section.disjoint_handlerKeys_iff different (filled.nouns part member)
      (filled.nouns other otherMember)).mpr (apart part member other otherMember different)

/-- The keys of a layout can be told apart in their texts, and its paths hold no braces. -/
theorem keys_and_paths_of_mem_layout (tokens : Name.IsToken normal.moduleId ∧
      ∀ part ∈ normal.sections, part.IsNormal)
    (filled : normal.SlotsFilled) (keeps : ∀ part ∈ normal.sections, part.Conventional)
    {route : Route} (member : route ∈ normal.layout) :
    route.handlerKey.IsWellFormed ∧ '\x7b' ∉ route.path.toList := by
  obtain ⟨part, inSections, action, inActions, laid⟩ :=
    exists_routeOf_of_mem_layout tokens.2 filled keeps member
  have normal := tokens.2 part inSections
  constructor
  · rw [laid.handlerKey]
    exact
      { moduleId := isPart_of_isToken tokens.1
        action := isPart_of_isToken (normal.names action inActions)
        resource := fun noun given => isPart_of_isToken (normal.noun noun given)
        noun := filled.nouns part inSections }
  · intro brace
    rcases laid.path.hasPlainSegments.mem_toList brace with same | same | same | letter
    · cases same
    · cases same
    · cases same
    · exact absurd letter (by decide)

end Definition

namespace Compiler

open Definition

/-- The keys of a compiled table can be told apart in their texts. -/
theorem wellFormed_of_compile {compiler : Compiler} {definition : Definition} {table : RouteTable}
    (compiled : compiler.compile definition = .ok table) :
    ∀ route ∈ table.routes, route.handlerKey.IsWellFormed := by
  obtain ⟨normal, normalized, filled, keeps, -, rfl⟩ := compile_eq_ok_iff.mp compiled
  have tokens := tokens_of_normalize normalized
  exact fun route member => (keys_and_paths_of_mem_layout tokens filled keeps member).1

/-- **Keys.** For a compiled table the following are the same: resources with one noun have no
action name in common; the keys of its routes are all different; its placeholders are as many as its
routes; its routes can be bound to arbitrary handlers, each to its own; and the operations of its
document have different ids. -/
theorem keysApart_tfae_of_compile {compiler : Compiler} {definition : Definition}
    {table : RouteTable} (compiled : compiler.compile definition = .ok table)
    (title version : String) :
    ∃ normal, definition.normalize = .ok normal ∧
      [normal.NounsApart,
        table.handlerKeys.Nodup,
        (Binding.stubsFor table).size = moduleRouteCount,
        ∀ assign : Nat → Handler, ∃ binding : Binding, ∀ index route,
          table.routes[index]? = some route → binding.get? route.handlerKey = some (assign index),
        (OpenApi.document [table] title version).operationIds.Nodup].TFAE := by
  obtain ⟨normal, normalized, filled, keeps, distinct, rfl⟩ := compile_eq_ok_iff.mp compiled
  have tokens := tokens_of_normalize normalized
  have spelled : ∀ route ∈ normal.layout, route.handlerKey.IsWellFormed ∧
      '\x7b' ∉ route.path.toList :=
    fun route member => keys_and_paths_of_mem_layout tokens filled keeps member
  have count := length_layout fun slot => (grouped_layout tokens.2 filled keeps slot).1
  refine ⟨normal, normalized, ?_⟩
  generalize made : RouteTable.mk normal.moduleId normal.theme (compiler.mountOf normal)
    normal.layout = table
  have routes : table.routes = normal.layout := by rw [← made]
  rw [← routes] at spelled distinct count
  tfae_have 1 ↔ 2 := by
    rw [RouteTable.handlerKeys, routes]
    exact (nodup_layout_handlerKeys_iff filled keeps).symm
  tfae_have 3 ↔ 2 := by
    rw [← count]
    exact Binding.size_stubsFor_eq_iff table
  tfae_have 4 ↔ 2 := Binding.forall_exists_binding_iff table
  tfae_have 5 ↔ 2 := by
    have ids := @OpenApi.operationIds_perm table title version distinct fun route member =>
      (spelled route member).2
    rw [ids.nodup_iff]
    refine ⟨List.Nodup.of_map _, fun different => different.map_on ?_⟩
    intro first firstMember second secondMember same
    obtain ⟨route, member, rfl⟩ := List.mem_map.mp firstMember
    obtain ⟨other, otherMember, rfl⟩ := List.mem_map.mp secondMember
    exact HandlerKey.text_inj (spelled route member).1 (spelled other otherMember).1 same
  tfae_finish

theorem keysApart_tfae_listings : ∃ table,
    default.compile (Definition.template "m" "listings" "tags" "audits") = .ok table ∧
    ∃ normal, (Definition.template "m" "listings" "tags" "audits").normalize = .ok normal ∧
      [normal.NounsApart,
        table.handlerKeys.Nodup,
        (Binding.stubsFor table).size = moduleRouteCount,
        ∀ assign : Nat → Handler, ∃ binding : Binding, ∀ index route,
          table.routes[index]? = some route → binding.get? route.handlerKey = some (assign index),
        (OpenApi.document [table] "routes" "1.0.0").operationIds.Nodup].TFAE := by
  obtain ⟨table, compiled⟩ := Outcome.exists_eq_ok (by decide +kernel :
    (default.compile (Definition.template "m" "listings" "tags" "audits")).isOk = true)
  exact ⟨table, compiled, keysApart_tfae_of_compile compiled "routes" "1.0.0"⟩

/-- A definition whose first two resources share a noun. The second one leaves no trace of items in
its paths, so that no two routes fall on one method and path. -/
def sharedNoun : Definition :=
  { Definition.template "seo" "listings" "listings" "audits" with
    sections := (Definition.template "seo" "listings" "listings" "audits").sections.map fun part =>
      if part.kind = .secondaryResourceA then
        { part with
          idStyle := .queryless
          actions := [.onItem .get "detail", .onItem .put "update", .onItem .delete "delete",
            .onItem .post "process"] }
      else part }

/-- The definition is compiled to a table in which four keys stand for two routes each. -/
theorem keys_repeat_of_sharedNoun : ∃ table, default.compile sharedNoun = .ok table ∧
    ¬table.handlerKeys.Nodup ∧ table.routes.length = 28 ∧ (Binding.stubsFor table).size = 24 := by
  have evaluated : (default.compile sharedNoun).toOption.any (fun table =>
      !decide table.handlerKeys.Nodup && table.routes.length = 28 &&
        (Binding.stubsFor table).size = 24) = true := by decide +kernel
  cases compiled : default.compile sharedNoun with
  | error fault => rw [compiled] at evaluated; cases evaluated
  | ok table =>
      rw [compiled] at evaluated
      simp only [Except.toOption, Option.any_some, Bool.and_eq_true, Bool.not_eq_true',
        decide_eq_false_iff_not, decide_eq_true_eq] at evaluated
      exact ⟨table, rfl, evaluated.1.1, evaluated.1.2, evaluated.2⟩

end Compiler

end ModuleRoutes
