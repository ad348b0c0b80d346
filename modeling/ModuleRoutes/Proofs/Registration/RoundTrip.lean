import ModuleRoutes.Proofs.Conformance.Check
import ModuleRoutes.Proofs.Registration.Blocks
import ModuleRoutes.Proofs.Registration.Keys
import ModuleRoutes.Proofs.Registration.Line

/-!
# Reading a written router back

A router source that registers the routes of a table in order, with labels in the stubs of any of
them, gives these routes back (`ModuleRoutes.Registration.extract_of_isSourceOf`), provided that the
names of the table tell its sections apart. The observed routes then agree with the table in every
method, path and family.
-/

namespace ModuleRoutes

/-- A table in which no noun is the name of another section, and in which no utility is called
like a root path or like a noun. -/
structure RouteTable.NamesApart (table : RouteTable) : Prop where
  nouns : ∀ key ∈ table.handlerKeys, ∀ noun, key.resource = some noun →
    noun ∉ ["dashboard", "analytics", "settings", "utilities"]
  utilities : ∀ key ∈ table.handlerKeys, key.kind = .utilities →
    key.action ∉ ["dashboard", "analytics", "settings"]
  utilityNouns : ∀ key ∈ table.handlerKeys, key.kind = .utilities →
    ∀ other ∈ table.handlerKeys, other.resource ≠ some key.action

instance (table : RouteTable) : Decidable table.NamesApart :=
  decidable_of_iff
    ((∀ key ∈ table.handlerKeys, ∀ noun ∈ key.resource,
        noun ∉ ["dashboard", "analytics", "settings", "utilities"]) ∧
      (∀ key ∈ table.handlerKeys, key.kind = .utilities →
        key.action ∉ ["dashboard", "analytics", "settings"]) ∧
      ∀ key ∈ table.handlerKeys, key.kind = .utilities →
        ∀ other ∈ table.handlerKeys, other.resource ≠ some key.action)
    ⟨fun ⟨nouns, utilities, utilityNouns⟩ => ⟨nouns, utilities, utilityNouns⟩,
      fun ⟨nouns, utilities, utilityNouns⟩ => ⟨nouns, utilities, utilityNouns⟩⟩

/-- A route as a router source shows it, which says nothing of the shape of answers. -/
def Route.shapeless (route : Route) : Route := { route with responseShape := none }

namespace Registration

/-- A line that neither registers a route nor names a section and an action. -/
def IsIdle (line : List Char) : Prop := registered? line = none ∧ stubLabel? line = none

/-- The lines that write a route: its registration, then idle lines, among which there may be its
label. -/
inductive Writes (route : Route) : List (List Char) → Prop
  | bare {line : List Char} {rest : List (List Char)}
      (registration : WritesRegistration route line) (idle : ∀ next ∈ rest, IsIdle next) :
      Writes route (line :: rest)
  | labelled {line label : List Char} {between rest : List (List Char)}
      (registration : WritesRegistration route line) (idleBetween : ∀ next ∈ between, IsIdle next)
      (named : WritesLabel route.handlerKey label) (idle : ∀ next ∈ rest, IsIdle next) :
      Writes route (line :: (between ++ label :: rest))

/-- A source that writes routes one after the other, behind lines that register nothing. -/
def IsSourceOf (routes : List Route) (source : String) : Prop :=
  ∃ preface stubs, (∀ line ∈ preface, IsIdle line) ∧ List.Forall₂ Writes routes stubs ∧
    Text.splitOn '\n' source.toList = preface ++ stubs.flatten

/-- A route whose lines can be read back: they have its method, path and names, and both its label
and its path suggest its key. -/
structure Suggested (words : Vocabulary) (route : Route) : Prop where
  path : HasPlainSegments route.path
  sectionToken : Name.IsToken (sectionName route.handlerKey)
  actionToken : Name.IsToken route.handlerKey.action
  byLabel : words.keyOfLabel? route.method
    ⟨sectionName route.handlerKey, route.handlerKey.action⟩ = some route.handlerKey
  byPath : words.keyOfPath? route.method route.path = some route.handlerKey

/-! ## Blocks of written routes -/

variable {route : Route} {line : List Char} {lines rest after : List (List Char)}
  {method : Method} {path : List Char}

theorem takeWhile_eq_self_of_unregistered (plain : ∀ next ∈ rest, registered? next = none) :
    (rest.takeWhile fun next => (registered? next).isNone) = rest := by
  rw [List.takeWhile_eq_self_iff]
  intro next member
  rw [plain next member]
  rfl

/-- Lines that register nothing open no block. -/
theorem blocks_of_unregistered (plain : ∀ next ∈ rest, registered? next = none) :
    blocks rest = [] := by
  induction rest with
  | nil => rfl
  | cons first rest ih =>
      rw [blocks_cons_of_not_registered (plain first List.mem_cons_self)]
      exact ih fun next member => plain next (List.mem_cons_of_mem _ member)

theorem findSome?_of_idle (idle : ∀ next ∈ rest, IsIdle next) :
    rest.findSome? stubLabel? = none := by
  rw [List.findSome?_eq_none_iff]
  intro next member
  exact (idle next member).2

/-- The lines that write a route are one block, with the label of the route or none. -/
theorem blocks_of_writes {words : Vocabulary} (suggested : Suggested words route)
    (written : Writes route lines) :
    ∃ label, blocks lines = [⟨route.method, route.path.toList, label⟩] ∧
      (label = none ∨ label = some ⟨sectionName route.handlerKey, route.handlerKey.action⟩) := by
  cases written with
  | @bare line rest registration idle =>
      have registers := registration.registered?_eq suggested.path
      have unregistered : ∀ next ∈ rest, registered? next = none := fun next member =>
        (idle next member).1
      refine ⟨none, ?_, Or.inl rfl⟩
      rw [blocks_cons_of_registered registers, blocks_of_unregistered unregistered, blockLines,
        takeWhile_eq_self_of_unregistered unregistered, List.findSome?_cons,
        registration.stubLabel?_eq suggested.path, findSome?_of_idle idle]
  | @labelled line label between rest registration idleBetween named idle =>
      have registers := registration.registered?_eq suggested.path
      have unregistered : ∀ next ∈ between ++ label :: rest, registered? next = none := by
        intro next member
        rcases List.mem_append.mp member with before | labelOrRest
        · exact (idleBetween next before).1
        · rcases List.mem_cons.mp labelOrRest with rfl | behind
          · exact named.registered?_eq suggested.sectionToken suggested.actionToken
          · exact (idle next behind).1
      refine ⟨_, ?_, Or.inr rfl⟩
      rw [blocks_cons_of_registered registers, blocks_of_unregistered unregistered, blockLines,
        takeWhile_eq_self_of_unregistered unregistered, List.findSome?_cons,
        registration.stubLabel?_eq suggested.path, List.findSome?_append,
        findSome?_of_idle idleBetween, List.findSome?_cons,
        named.stubLabel?_eq suggested.sectionToken suggested.actionToken]
      rfl

/-- The lines that write a route give it back. -/
theorem routesOf_of_writes {definition : Definition}
    (suggested : Suggested (Vocabulary.ofDefinition definition) route)
    (written : Writes route lines) : routesOf definition lines = [route.shapeless] := by
  obtain ⟨label, block, labels⟩ := blocks_of_writes suggested written
  have found : Pending.route? (Vocabulary.ofDefinition definition)
      ⟨route.method, route.path.toList, label⟩ = some route.shapeless := by
    rw [Pending.route?, cleanPath_toList suggested.path]
    rcases labels with rfl | rfl
    · simp only [suggested.byPath, Option.map_some]
      rfl
    · simp only [suggested.byLabel, Option.map_some]
      rfl
  rw [routesOf_eq_blocks, block, List.filterMap_cons, found]
  rfl

/-! ## Sources -/

/-- Lines in which nothing stands before the first registration. -/
def BeginsRegistered (lines : List (List Char)) : Prop :=
  lines = [] ∨ ∃ line rest method path, lines = line :: rest ∧
    registered? line = some (method, path)

theorem routesOf_append_of_begins {definition : Definition} (begins : BeginsRegistered after) :
    routesOf definition (lines ++ after) =
      routesOf definition lines ++ routesOf definition after := by
  rcases begins with rfl | ⟨line, rest, method, path, rfl, registers⟩
  · rw [List.append_nil]
    exact (List.append_nil _).symm
  · exact routesOf_append definition registers

theorem beginsRegistered_of_writes {words : Vocabulary} (suggested : Suggested words route)
    (written : Writes route lines) (after : List (List Char)) :
    BeginsRegistered (lines ++ after) := by
  right
  cases written with
  | bare registration idle =>
      exact ⟨_, _, _, _, List.cons_append, registration.registered?_eq suggested.path⟩
  | labelled registration idleBetween named idle =>
      exact ⟨_, _, _, _, List.cons_append, registration.registered?_eq suggested.path⟩

variable {definition : Definition} {routes : List Route} {stubs : List (List (List Char))}

theorem beginsRegistered_flatten (written : List.Forall₂ Writes routes stubs)
    (suggested : ∀ route ∈ routes, Suggested (Vocabulary.ofDefinition definition) route) :
    BeginsRegistered stubs.flatten := by
  cases written with
  | nil => exact Or.inl rfl
  | cons first others =>
      exact beginsRegistered_of_writes (suggested _ List.mem_cons_self) first _

/-- Stubs written one after the other give their routes in order. -/
theorem routesOf_flatten (written : List.Forall₂ Writes routes stubs)
    (suggested : ∀ route ∈ routes, Suggested (Vocabulary.ofDefinition definition) route) :
    routesOf definition stubs.flatten = routes.map Route.shapeless := by
  induction written with
  | nil => rfl
  | cons first others ih =>
      have later := fun route member => suggested route (List.mem_cons_of_mem _ member)
      have begins := beginsRegistered_flatten others later
      rw [List.flatten_cons, routesOf_append_of_begins begins, ih later,
        routesOf_of_writes (suggested _ List.mem_cons_self) first]
      rfl

theorem extract_of_suggested {source : String} (written : IsSourceOf routes source)
    (suggested : ∀ route ∈ routes, Suggested (Vocabulary.ofDefinition definition) route) :
    extract source definition = routes.map Route.shapeless := by
  obtain ⟨preface, stubs, idle, stubsWritten, lines⟩ := written
  have silent : routesOf definition preface = [] := by
    rw [routesOf_eq_blocks, blocks_of_unregistered fun line member => (idle line member).1]
    rfl
  rw [extract_eq, lines,
    routesOf_append_of_begins (beginsRegistered_flatten stubsWritten suggested), silent,
    routesOf_flatten stubsWritten suggested]
  rfl

/-! ## Compiled tables -/

variable {normal : Definition} {part : Section} {action : Action} {index : Nat}

theorem mem_layout_iff (filled : normal.SlotsFilled) :
    route ∈ normal.layout ↔ ∃ part ∈ normal.sections, ∃ index action,
      part.tableOrder[index]? = some action ∧
        route = part.route normal.moduleId action (part.pathAt index action) := by
  have inBlock : ∀ part : Section, route ∈ part.layout normal.moduleId ↔
      ∃ index action, part.tableOrder[index]? = some action ∧
        route = part.route normal.moduleId action (part.pathAt index action) := by
    intro part
    rw [Section.layout, List.mem_mapIdx]
    constructor
    · rintro ⟨index, inside, same⟩
      exact ⟨index, _, List.getElem?_eq_getElem inside, same.symm⟩
    · rintro ⟨index, action, placed, same⟩
      obtain ⟨inside, rfl⟩ := List.getElem?_eq_some_iff.mp placed
      exact ⟨index, inside, same.symm⟩
  rw [Definition.layout, List.mem_flatMap]
  constructor
  · rintro ⟨slot, _, member⟩
    obtain ⟨part, found⟩ := filled.exists_findSection? slot
    rw [Definition.blockOf, found] at member
    exact ⟨part, (filled.findSection?_eq_some_iff.mp found).1, (inBlock part).mp member⟩
  · rintro ⟨part, inSections, laid⟩
    have found := filled.findSection?_eq_some_iff.mpr ⟨inSections, rfl⟩
    refine ⟨part.kind, part.kind.mem_all, ?_⟩
    rw [Definition.blockOf, found]
    exact (inBlock part).mpr laid

/-- Every noun of a normal form is the resource of a route. -/
theorem exists_route_of_noun (filled : normal.SlotsFilled)
    (keeps : ∀ part ∈ normal.sections, part.Conventional) (inSections : part ∈ normal.sections)
    {noun : String} (named : part.resourceName = some noun) :
    ∃ route ∈ normal.layout, route.handlerKey.resource = some noun := by
  have count := (keeps part inSections).arity
  have order := (Section.tableOrder_perm (keeps part inSections).distinctNames).length_eq
  have inhabited : 0 < part.tableOrder.length := by
    rw [order, count]
    cases part.kind <;> decide
  refine ⟨_, (mem_layout_iff filled).mpr ⟨part, inSections, 0, _,
    List.getElem?_eq_getElem inhabited, rfl⟩, named⟩

/-- The routes of a table whose names tell its sections apart are suggested by their labels and by
their paths. -/
theorem suggested_of_mem_layout (normalized : definition.normalize = .ok normal)
    (filled : normal.SlotsFilled) (keeps : ∀ part ∈ normal.sections, part.Conventional)
    {table : RouteTable} (laid : table.routes = normal.layout) (apart : table.NamesApart)
    (member : route ∈ normal.layout) : Suggested (Vocabulary.ofDefinition definition) route := by
  obtain ⟨part, inSections, index, action, placed, rfl⟩ := (mem_layout_iff filled).mp member
  have keepsPart := keeps part inSections
  have isNormal := (Definition.tokens_of_normalize normalized).2 part inSections
  have inActions : action ∈ part.actions :=
    (Section.tableOrder_perm keepsPart.distinctNames).mem_iff.mp (List.mem_of_getElem? placed)
  have inKeys : ∀ route ∈ normal.layout, route.handlerKey ∈ table.handlerKeys := by
    intro route member
    rw [RouteTable.handlerKeys, laid]
    exact List.mem_map_of_mem member
  have inTable := inKeys _ member
  have shaped := Section.pathShaped_pathAt keepsPart isNormal (filled.noun_isSome inSections)
    inActions index
  have nounApart : ∀ noun, part.resourceName = some noun →
      noun ∉ ["dashboard", "analytics", "settings", "utilities"] :=
    fun noun named => apart.nouns _ inTable noun named
  refine ⟨shaped.hasPlainSegments, ?_, isNormal.names action inActions, ?_, ?_⟩
  · change Name.IsToken (part.resourceName.getD part.kind.kind.text)
    cases named : part.resourceName with
    | some noun => exact isNormal.noun noun named
    | none =>
        rw [Option.getD_none]
        cases part.kind.kind <;> decide
  · exact Vocabulary.keyOfLabel?_route normalized filled inSections keepsPart placed nounApart
  · apply Vocabulary.keyOfPath?_route normalized filled inSections keepsPart placed
    · intro noun named reserved
      exact nounApart noun named (List.mem_append_left ["utilities"] reserved)
    · intro slot
      have kind : part.kind.kind = .utilities := by rw [slot]; rfl
      refine ⟨apart.utilities _ inTable kind, fun declared => ?_⟩
      rw [Vocabulary.nouns_of_normalize normalized, List.mem_filterMap] at declared
      obtain ⟨other, inOthers, named⟩ := declared
      obtain ⟨otherRoute, otherMember, resource⟩ :=
        exists_route_of_noun filled keeps inOthers named
      exact apart.utilityNouns _ inTable kind _ (inKeys _ otherMember) resource

/-- Routes of a table that were read back without their shapes are as expected. -/
theorem isClean_check_shapeless (table : RouteTable) :
    (Conformance.check table (table.routes.map Route.shapeless)).isClean = true := by
  rw [Conformance.isClean_iff_perm, List.map_map]
  have same : ∀ route ∈ table.routes,
      Conformance.expectedKey route =
        (Conformance.observedKey table ∘ Route.shapeless) route := by
    intro route member
    have expected : route.handlerKey.family ∈ table.handlerKeys.map HandlerKey.family :=
      List.mem_map_of_mem (List.mem_map_of_mem member)
    have comparable : Conformance.comparableFamily (table.handlerKeys.map HandlerKey.family)
        route.shapeless = route.handlerKey.family := by
      unfold Conformance.comparableFamily
      exact if_pos (Or.inr expected)
    rw [Function.comp_apply, Conformance.observedKey, comparable]
    rfl
  rw [List.map_congr_left same]

/-! ## Written sources -/

/-- The lines of the stub of a route, with its label or without. -/
def stubLines (labelled : Bool) (route : Route) : List String :=
  registrationText route :: ((if labelled then [labelText route.handlerKey] else []) ++ ["\x7d);"])

/-- The source that registers routes one after the other and labels some of them. -/
def sourceText (labelled : Route → Bool) (routes : List Route) : String :=
  Text.joined "\n" (routes.flatMap fun route => stubLines (labelled route) route)

theorem isIdle_closing : IsIdle "\x7d);".toList := ⟨by decide, by decide⟩

/-- The stub of a route writes it. -/
theorem writes_stubLines (labelled : Bool) (route : Route) :
    Writes route ((stubLines labelled route).map String.toList) := by
  have closing : ∀ next ∈ ["\x7d);".toList], IsIdle next := by
    intro next member
    rw [List.mem_singleton.mp member]
    exact isIdle_closing
  have registration := writesRegistration_registrationText route
  cases labelled with
  | false => exact .bare registration closing
  | true =>
      have noneBetween : ∀ next ∈ ([] : List (List Char)), IsIdle next := nofun
      exact .labelled registration noneBetween (writesLabel_labelText _) closing

theorem newline_not_mem_stubLines {words : Vocabulary} (suggested : Suggested words route)
    (labelled : Bool) : ∀ line ∈ stubLines labelled route, '\n' ∉ line.toList := by
  have registration := newline_not_mem_registrationText suggested.path
  have label := newline_not_mem_labelText suggested.sectionToken suggested.actionToken
  have closing : '\n' ∉ "\x7d);".toList := by decide
  intro line member
  cases labelled with
  | false =>
      rcases List.mem_pair.mp member with rfl | rfl
      · exact registration
      · exact closing
  | true =>
      rcases List.mem_cons.mp member with rfl | later
      · exact registration
      · rcases List.mem_pair.mp later with rfl | rfl
        · exact label
        · exact closing

/-- The source of some routes writes them in order. -/
theorem isSourceOf_sourceText {words : Vocabulary} (labelled : Route → Bool)
    (nonempty : routes ≠ [])
    (suggested : ∀ route ∈ routes, Suggested words route) :
    IsSourceOf routes (sourceText labelled routes) := by
  refine ⟨[], routes.map fun route => (stubLines (labelled route) route).map String.toList, nofun,
    ?_, ?_⟩
  · rw [List.forall₂_map_right_iff]
    exact List.forall₂_same.mpr fun route _ => writes_stubLines (labelled route) route
  · have free : ∀ line ∈ routes.flatMap fun route => stubLines (labelled route) route,
        '\n' ∉ line.toList := by
      intro line member
      obtain ⟨route, inRoutes, inStub⟩ := List.mem_flatMap.mp member
      exact newline_not_mem_stubLines (suggested route inRoutes) _ line inStub
    have filled : (routes.flatMap fun route => stubLines (labelled route) route) ≠ [] := by
      obtain ⟨route, others, rfl⟩ := List.exists_cons_of_ne_nil nonempty
      exact List.cons_ne_nil _ _
    have lines := Text.splitOn_joinWith (List.forall_mem_map.mpr free)
      (by simpa only [ne_eq, List.map_eq_nil_iff] using filled)
    rw [sourceText, Text.toList_joined, List.nil_append]
    exact lines.trans List.map_flatMap

/-! ## Round trips -/

theorem suggested_of_compile {compiler : Compiler} {table : RouteTable}
    (compiled : compiler.compile definition = .ok table) (apart : table.NamesApart) :
    ∀ route ∈ table.routes, Suggested (Vocabulary.ofDefinition definition) route := by
  obtain ⟨normal, normalized, filled, keeps, -, same⟩ := Compiler.compile_eq_ok_iff.mp compiled
  have laid : table.routes = normal.layout := by rw [same]
  intro route member
  exact suggested_of_mem_layout normalized filled keeps laid apart (laid ▸ member)

/-- **Round trip.** For every compiled table whose names tell its sections apart, a source that
writes its routes in order, with or without labels, gives them back, 28 routes with the paths,
methods and keys of the table, and checking these against the table finds no drift. -/
theorem extract_of_isSourceOf {compiler : Compiler} {table : RouteTable}
    (compiled : compiler.compile definition = .ok table) (apart : table.NamesApart)
    {source : String} (written : IsSourceOf table.routes source) :
    extract source definition = table.routes.map Route.shapeless ∧
      (extract source definition).length = moduleRouteCount ∧
      (Conformance.check table (extract source definition)).isClean = true := by
  have extracted := extract_of_suggested written (suggested_of_compile compiled apart)
  rw [extracted]
  refine ⟨rfl, ?_, isClean_check_shapeless table⟩
  rw [List.length_map, Compiler.length_routes_of_compile compiled]

theorem extract_template : ∃ table,
    Compiler.default.compile (Definition.template "seo-optimizer" "listings" "keywords" "audits") =
      .ok table ∧
    table.NamesApart ∧
    IsSourceOf table.routes (sourceText (fun route => route.method = .get) table.routes) ∧
    extract (sourceText (fun route => route.method = .get) table.routes)
      (Definition.template "seo-optimizer" "listings" "keywords" "audits") =
        table.routes.map Route.shapeless ∧
    (extract (sourceText (fun route => route.method = .get) table.routes)
      (Definition.template "seo-optimizer" "listings" "keywords" "audits")).length =
        moduleRouteCount ∧
    (Conformance.check table (extract
      (sourceText (fun route => route.method = .get) table.routes)
      (Definition.template "seo-optimizer" "listings" "keywords" "audits"))).isClean = true := by
  have checked : ((Compiler.default.compile
      (Definition.template "seo-optimizer" "listings" "keywords" "audits")).toOption.any
        fun table => decide table.NamesApart) = true := by decide +kernel
  cases compiled : Compiler.default.compile
      (Definition.template "seo-optimizer" "listings" "keywords" "audits") with
  | error fault =>
      rw [compiled] at checked
      cases checked
  | ok table =>
      rw [compiled] at checked
      have apart : table.NamesApart := of_decide_eq_true checked
      have nonempty : table.routes ≠ [] := by
        apply List.ne_nil_of_length_pos
        rw [Compiler.length_routes_of_compile compiled]
        decide
      have written := isSourceOf_sourceText (fun route => route.method = .get) nonempty
        (suggested_of_compile compiled apart)
      exact ⟨table, rfl, apart, written, extract_of_isSourceOf compiled apart written⟩

end Registration

end ModuleRoutes
