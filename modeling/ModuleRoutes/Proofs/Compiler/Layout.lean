import ModuleRoutes.Proofs.Compiler.Acceptance
import ModuleRoutes.Proofs.Section.Paths

/-!
# The layout of tables

A compiled table is the normal form of its definition, laid out: slot by slot, each action on one
route, the actions of a resource verbs first (`ModuleRoutes.Compiler.laidOut_of_compile`). Its mount
is a path that starts with a slash and does not end with one.
-/

namespace ModuleRoutes

/-- The names of the verbs of a resource in the order of the table. -/
def verbNames : List String := ["list", "detail", "create", "update", "delete"]

namespace Section

/-- A route of an action: it has the method and the shape of the action, the key made of the module
and the names of section and action, and a path of the action's shape. -/
structure RouteOf (moduleId : String) (part : Section) (action : Action) (route : Route) :
    Prop where
  method : route.method = action.method
  responseShape : route.responseShape = action.responseShape
  handlerKey : route.handlerKey = ⟨moduleId, part.kind.kind, part.resourceName, action.name⟩
  path : part.PathShaped action route.path

/-- The actions of a section in the order of the table: those of a resource are its verbs in their
fixed order and then the others as authored, those of any other section are as authored. -/
def InTableOrder (part : Section) (ordered : List Action) : Prop :=
  if part.kind.isResource then
    ∃ verbs, ordered = verbs ++ part.actions.filter (fun action => action.name ∉ verbNames) ∧
      verbs.map Action.name = verbNames.filter fun name => name ∈ part.actions.map Action.name
  else ordered = part.actions

/-- The routes of a section: one for each action, in the order of the table. -/
def BlockOf (moduleId : String) (part : Section) (block : List Route) : Prop :=
  ∃ ordered : List Action, ordered.Perm part.actions ∧ part.InTableOrder ordered ∧
    List.Forall₂ (part.RouteOf moduleId) ordered block

variable {moduleId : String} {part : Section}

theorem isVerb_eq (name : String) : Verb.isVerb name = decide (name ∈ verbNames) := by
  have spelled : verbNames = Verb.all.map Verb.text := rfl
  rw [Bool.eq_iff_iff, decide_eq_true_iff, spelled, List.mem_map, Verb.isVerb,
    Option.isSome_iff_exists]
  constructor
  · rintro ⟨verb, found⟩
    exact ⟨verb, verb.mem_all, (Verb.ofText?_eq_some_iff.mp found).symm⟩
  · rintro ⟨verb, _, named⟩
    exact ⟨verb, Verb.ofText?_eq_some_iff.mpr named.symm⟩

/-- The actions that verbs find have the names of the verbs that find one. -/
theorem map_name_filterMap_actionFor? (verbs : List Verb) :
    (verbs.filterMap part.actionFor?).map Action.name =
      (verbs.map Verb.text).filter fun name => name ∈ part.actions.map Action.name := by
  induction verbs with
  | nil => rfl
  | cons verb verbs ih =>
      have declared : verb.text ∈ part.actions.map Action.name ↔ (part.actionFor? verb).isSome := by
        rw [actionFor?_isSome_iff, List.mem_map]
      rw [List.map_cons, List.filterMap_cons, List.filter_cons]
      cases found : part.actionFor? verb with
      | none =>
          rw [found] at declared
          rw [if_neg (by simpa using declared), ← ih]
      | some action =>
          rw [found] at declared
          rw [if_pos (by simpa using declared), ← ih, List.map_cons, (actionFor?_spec found).2]

theorem inTableOrder_tableOrder : part.InTableOrder part.tableOrder := by
  unfold InTableOrder tableOrder
  by_cases resource : part.kind.isResource = true
  · rw [if_pos resource, if_pos resource]
    refine ⟨_, ?_, map_name_filterMap_actionFor? Verb.all⟩
    simp only [isVerb_eq, decide_not]
  · rw [if_neg resource, if_neg resource]

/-- The layout of a section in normal form that keeps the conventions is made of its routes. -/
theorem blockOf_layout (keeps : part.Conventional) (normal : part.IsNormal)
    (named : part.kind.isResource = true → part.resourceName.isSome) :
    part.BlockOf moduleId (part.layout moduleId) := by
  have order := tableOrder_perm keeps.distinctNames
  refine ⟨part.tableOrder, order, inTableOrder_tableOrder, Places.forall₂_mapIdx ?_⟩
  intro action member index
  exact ⟨rfl, rfl, rfl, pathShaped_pathAt keeps normal named (order.mem_iff.mp member) index⟩

theorem BlockOf.length_eq {block : List Route} (laid : part.BlockOf moduleId block)
    (keeps : part.Conventional) : block.length = part.kind.arity := by
  obtain ⟨ordered, order, _, pointwise⟩ := laid
  rw [← pointwise.length_eq, order.length_eq, keeps.arity]

end Section

/-- A path below the root: it starts with a slash and does not end with one. -/
def IsRooted (path : String) : Prop :=
  path.toList.head? = some '/' ∧ path.toList.getLast? ≠ some '/'

namespace Definition

/-- A table that lays out a normal form: for each slot in order the routes of the one section in it,
and no two routes on one method and path. -/
structure LaidOut (normal : Definition) (table : RouteTable) : Prop where
  moduleId : table.moduleId = normal.moduleId
  tokens : Name.IsToken normal.moduleId ∧ ∀ part ∈ normal.sections, part.IsNormal
  filled : normal.SlotsFilled
  count : table.routes.length = moduleRouteCount
  grouped : ∃ blocks : Slot → List Route, table.routes = Slot.all.flatMap blocks ∧
    ∀ slot, (blocks slot).length = slot.arity ∧
      ∃ part ∈ normal.sections, part.kind = slot ∧ part.BlockOf normal.moduleId (blocks slot)
  distinct : (table.routes.map Route.endpoint).Nodup
  mount : IsRooted table.mount

variable {definition normal : Definition}

theorem tokens_of_normalize (normalized : definition.normalize = .ok normal) :
    Name.IsToken normal.moduleId ∧ ∀ part ∈ normal.sections, part.IsNormal := by
  obtain ⟨_, _, _, _, each, named, rfl⟩ := normalize_eq_ok_iff.mp normalized
  refine ⟨Name.isToken_of_normalize named, fun part member => ?_⟩
  obtain ⟨_, _, normal⟩ := Places.exists_of_mem_forall₂ each member
  exact Section.isNormal_of_normalize normal

/-! ## Mounts -/

theorem isRooted_of_last {path : String} {token : String} (isToken : Name.IsToken token)
    (starts : path.toList.head? = some '/') (ends : path.toList.getLast? = token.toList.getLast?) :
    IsRooted path := by
  refine ⟨starts, fun slash => ?_⟩
  rw [ends] at slash
  exact isToken.slash_not_mem (List.mem_of_getLast? slash)

theorem isRooted_of_tokens {tokens : List String} (nonempty : tokens ≠ [])
    (areTokens : ∀ token ∈ tokens, Name.IsToken token) :
    IsRooted ("/" ++ Text.joined "/" tokens) := by
  have filled : ∀ piece ∈ tokens.map String.toList, piece ≠ [] :=
    List.forall_mem_map.mpr fun token member => (areTokens token member).toList_ne_nil
  obtain ⟨_, member, ends⟩ :=
    Text.exists_getLast?_joinWith "/".toList (by simpa using nonempty) filled
  obtain ⟨token, inTokens, rfl⟩ := List.mem_map.mp member
  refine isRooted_of_last (areTokens token inTokens) (by simp) ?_
  have last := List.getLast?_eq_some_getLast (filled _ member)
  rw [String.toList_append, Text.toList_joined, List.getLast?_append, ends, last, Option.some_or]

theorem isRooted_of_normalizeMount {raw mount : String}
    (spelled : Name.normalizeMount raw = .ok mount) : IsRooted mount := by
  obtain ⟨tokens, rfl, nonempty, areTokens⟩ := Name.exists_tokens_of_normalizeMount spelled
  exact isRooted_of_tokens nonempty areTokens

/-- The mount of a module is below the root, whatever the compiler's prefix. -/
theorem isRooted_mountOf (rawPrefix : String) (normalized : definition.normalize = .ok normal) :
    IsRooted ((Compiler.withPrefix rawPrefix).mountOf normal) := by
  have isToken := (tokens_of_normalize normalized).1
  obtain ⟨mount, _, _, mounted, _, _, rfl⟩ := normalize_eq_ok_iff.mp normalized
  unfold Compiler.mountOf
  rcases Outcome.optional_mapM_eq_ok_iff.mp mounted with ⟨_, rfl⟩ | ⟨raw, given, _, spelled, rfl⟩
  · rw [Option.getD_none]
    refine isRooted_of_last isToken ?_ ?_
    · unfold Compiler.withPrefix
      dsimp only
      split <;> simp
    · have last := List.getLast?_eq_some_getLast isToken.toList_ne_nil
      rw [String.toList_append, List.getLast?_append, last, Option.some_or]
  · exact isRooted_of_normalizeMount spelled

/-! ## Tables -/

/-- The layout of a normal form that keeps every convention, slot by slot. -/
theorem grouped_layout (tokens : ∀ part ∈ normal.sections, part.IsNormal)
    (filled : normal.SlotsFilled) (keeps : ∀ part ∈ normal.sections, part.Conventional)
    (slot : Slot) :
    (normal.blockOf slot).length = slot.arity ∧
      ∃ part ∈ normal.sections, part.kind = slot ∧
        part.BlockOf normal.moduleId (normal.blockOf slot) := by
  obtain ⟨part, found⟩ := filled.exists_findSection? slot
  obtain ⟨member, rfl⟩ := filled.findSection?_eq_some_iff.mp found
  have laid : part.BlockOf normal.moduleId (normal.blockOf part.kind) := by
    rw [blockOf, found]
    exact Section.blockOf_layout (keeps part member) (tokens part member)
      (filled.noun_isSome member)
  exact ⟨laid.length_eq (keeps part member), part, member, rfl, laid⟩

theorem exists_routeOf_of_mem_layout (tokens : ∀ part ∈ normal.sections, part.IsNormal)
    (filled : normal.SlotsFilled) (keeps : ∀ part ∈ normal.sections, part.Conventional)
    {route : Route} (member : route ∈ normal.layout) :
    ∃ part ∈ normal.sections, ∃ action ∈ part.actions,
      part.RouteOf normal.moduleId action route := by
  obtain ⟨slot, _, inBlock⟩ := List.mem_flatMap.mp member
  obtain ⟨_, part, inSections, _, ordered, order, _, pointwise⟩ :=
    grouped_layout tokens filled keeps slot
  obtain ⟨action, inOrdered, laid⟩ := Places.exists_of_mem_forall₂ pointwise inBlock
  exact ⟨part, inSections, action, order.mem_iff.mp inOrdered, laid⟩

/-- A layout has the dashboard of its module. -/
theorem exists_dashboard_mem_layout (filled : normal.SlotsFilled)
    (keeps : ∀ part ∈ normal.sections, part.Conventional) :
    ∃ route ∈ normal.layout, route.endpoint = ("/dashboard", .get) := by
  obtain ⟨part, found⟩ := filled.exists_findSection? .dashboard
  obtain ⟨member, kind⟩ := filled.findSection?_eq_some_iff.mp found
  have dashboard : part.kind.kind = .dashboard := by rw [kind]; rfl
  have rule := (keeps part member).kindRule
  have arity := (keeps part member).arity
  rw [Section.KindRule, dashboard] at rule
  rw [kind] at arity
  obtain ⟨action, others, actions⟩ : ∃ action others, part.actions = action :: others :=
    List.exists_cons_of_length_eq_add_one arity
  have laid : part.route normal.moduleId action (part.pathAt 0 action) ∈
      part.layout normal.moduleId := by
    rw [Section.layout_of_not_resource (by simp [dashboard]), actions, List.mapIdx_cons]
    exact List.mem_cons_self
  refine ⟨_, List.mem_flatMap.mpr
    ⟨.dashboard, Slot.mem_all _, by rw [blockOf, found]; exact laid⟩, ?_⟩
  have path : part.pathAt 0 action = "/dashboard" := by rw [Section.pathAt, dashboard]; rfl
  have method := (rule action (actions ▸ List.mem_cons_self)).1
  exact Prod.ext path method

theorem length_layout (lengths : ∀ slot, (normal.blockOf slot).length = slot.arity) :
    normal.layout.length = moduleRouteCount := by
  rw [layout, List.length_flatMap, funext lengths]
  decide

end Definition

namespace Compiler

theorem length_routes_of_compile {compiler : Compiler} {definition : Definition}
    {table : RouteTable} (compiled : compiler.compile definition = .ok table) :
    table.routes.length = moduleRouteCount := by
  obtain ⟨normal, normalized, filled, keeps, -, rfl⟩ := compile_eq_ok_iff.mp compiled
  have tokens := (Definition.tokens_of_normalize normalized).2
  exact Definition.length_layout fun slot => (Definition.grouped_layout tokens filled keeps slot).1

/-- The routes of a compiled table are on paths of routes. -/
theorem isRoutePath_of_compile {compiler : Compiler} {definition : Definition} {table : RouteTable}
    {route : Route} (compiled : compiler.compile definition = .ok table)
    (member : route ∈ table.routes) : IsRoutePath route.path := by
  obtain ⟨normal, normalized, filled, keeps, -, rfl⟩ := compile_eq_ok_iff.mp compiled
  have tokens := (Definition.tokens_of_normalize normalized).2
  obtain ⟨part, _, action, _, laid⟩ :=
    Definition.exists_routeOf_of_mem_layout tokens filled keeps member
  exact laid.path.isRoutePath

/-- **Layout.** Whatever the prefix, a compiled table lays out the normal form of its definition,
under the mount that the definition declares or else under the prefix and the module id. -/
theorem laidOut_of_compile (rawPrefix : String) {definition : Definition} {table : RouteTable}
    (compiled : (withPrefix rawPrefix).compile definition = .ok table) :
    ∃ normal, definition.normalize = .ok normal ∧ normal.LaidOut table ∧
      table.mount = (withPrefix rawPrefix).mountOf normal := by
  obtain ⟨normal, normalized, filled, keeps, distinct, rfl⟩ := compile_eq_ok_iff.mp compiled
  have tokens := Definition.tokens_of_normalize normalized
  have grouped := Definition.grouped_layout tokens.2 filled keeps
  exact ⟨normal, normalized,
    { moduleId := rfl
      tokens := tokens
      filled := filled
      count := Definition.length_layout fun slot => (grouped slot).1
      grouped := ⟨normal.blockOf, rfl, grouped⟩
      distinct := distinct
      mount := Definition.isRooted_mountOf rawPrefix normalized }, rfl⟩

theorem laidOut_sellerHub : ∃ table,
    (withPrefix "v2/").compile
      { Definition.template "Seller Hub" "Category" "box" "Listing" with nounStyle := .plural } =
        .ok table ∧
    ∃ normal, Definition.normalize
        { Definition.template "Seller Hub" "Category" "box" "Listing" with nounStyle := .plural } =
          .ok normal ∧
      normal.LaidOut table ∧ table.mount = (withPrefix "v2/").mountOf normal := by
  obtain ⟨table, compiled⟩ := Outcome.exists_eq_ok (by decide +kernel :
    ((withPrefix "v2/").compile { Definition.template "Seller Hub" "Category" "box" "Listing" with
      nounStyle := .plural }).isOk = true)
  exact ⟨table, compiled, laidOut_of_compile "v2/" compiled⟩

end Compiler

end ModuleRoutes
