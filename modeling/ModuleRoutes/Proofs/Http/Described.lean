import ModuleRoutes.Proofs.Http.Build
import ModuleRoutes.Proofs.OpenApi

/-!
# Documents of what is served

A document of tables and a router of the modules that are emitted from them put parameters in braces
each in its own way, and group routes by path each on its own. They write the same paths
(`ModuleRoutes.RouteTable.placeOf_eq`). Where no two routes of the tables are on one method and path
below their mounts, the router serves all of them and the document lists one operation for each
(`ModuleRoutes.Http.Router.document_describes_build`), with the names in braces in its path for
required parameters (`ModuleRoutes.OpenApi.parameterNames_eq_namesInBraces`).
-/

namespace ModuleRoutes

namespace OpenApi

/-! ## Names in braces -/

/-- The names that stand in braces in a text. `reading` holds the letters so far of a name that is
being read, the latest first. -/
def bracedNames (reading : Option (List Char)) : List Char → List (List Char)
  | [] => []
  | c :: rest =>
    match reading with
    | none => if c = '\x7b' then bracedNames (some []) rest else bracedNames none rest
    | some name =>
      if c = '\x7d' then name.reverse :: bracedNames none rest
      else bracedNames (some (c :: name)) rest

/-- The names that stand in braces in a path, in order. -/
def namesInBraces (path : String) : List String := (bracedNames none path.toList).map String.ofList

theorem bracedNames_append {text : List Char} (plain : '\x7b' ∉ text) (rest : List Char) :
    bracedNames none (text ++ rest) = bracedNames none rest := by
  induction text with
  | nil => rfl
  | cons c text ih =>
    rw [List.mem_cons, not_or] at plain
    rw [List.cons_append, bracedNames, if_neg (Ne.symm plain.1), ih plain.2]

theorem bracedNames_name {name : List Char} (plain : '\x7d' ∉ name) (letters rest : List Char) :
    bracedNames (some letters) (name ++ '\x7d' :: rest) =
      (letters.reverse ++ name) :: bracedNames none rest := by
  induction name generalizing letters with
  | nil => rw [List.nil_append, List.append_nil, bracedNames, if_pos rfl]
  | cons c name ih =>
    rw [List.mem_cons, not_or] at plain
    rw [List.cons_append, bracedNames, if_neg (Ne.symm plain.1), ih plain.2, List.reverse_cons,
      List.append_assoc, List.singleton_append]

theorem bracedNames_segment {part : List Char} (plain : '\x7b' ∉ part ∧ '\x7d' ∉ part)
    (rest : List Char) :
    bracedNames none (Http.bracedSegment part ++ rest) =
      (parameterName? part).toList ++ bracedNames none rest := by
  cases part with
  | nil => rfl
  | cons c name =>
    by_cases colon : c = ':'
    · subst colon
      have braced :
          Http.bracedSegment (':' :: name) ++ rest = '\x7b' :: (name ++ '\x7d' :: rest) := by
        simp [Http.bracedSegment]
      rw [braced, bracedNames, if_pos rfl,
        bracedNames_name (fun brace => plain.2 (List.mem_cons_of_mem _ brace)) [] rest]
      rfl
    · rw [Http.bracedSegment_of_ne colon, parameterName?_of_ne colon]
      exact bracedNames_append plain.1 rest

/-- The names in braces behind a path are those of its segments. -/
theorem bracedNames_segments {parts : List String}
    (plain : ∀ part ∈ parts, '\x7b' ∉ part.toList ∧ '\x7d' ∉ part.toList) :
    bracedNames none (parts.flatMap fun part => '/' :: Http.bracedSegment part.toList) =
      parts.filterMap fun part => parameterName? part.toList := by
  induction parts with
  | nil => rfl
  | cons part parts ih =>
    obtain ⟨first, rest⟩ := List.forall_mem_cons.mp plain
    rw [List.flatMap_cons, List.cons_append, bracedNames, if_neg (by decide),
      bracedNames_segment first, ih rest, List.filterMap_cons]
    cases parameterName? part.toList with
    | none => rfl
    | some name => rfl

theorem braces_not_mem_segment {segment : String} (plain : segment ≠ ":id" → Name.IsToken segment) :
    '\x7b' ∉ segment.toList ∧ '\x7d' ∉ segment.toList := by
  by_cases item : segment = ":id"
  · subst item
    decide
  · constructor <;> intro brace <;> exact absurd ((plain item).mem_toList brace) (by decide)

/-- The parameters of a route are the names in braces in its path below the mount. -/
theorem parameterNames_eq_namesInBraces {mount path : String} (mounted : IsMountPath mount)
    (modulePath : IsModulePath path) :
    parameterNames path = namesInBraces (mount ++ Http.bracedPath path) := by
  have mountPlain := mounted.isModulePath.brace_not_mem
  obtain ⟨parts, rfl, nonempty, tokens, -⟩ := modulePath
  have free : ∀ part ∈ parts, '/' ∉ part.toList :=
    fun part member => slash_not_mem_segment (tokens part member)
  have noName : parameterName? [] = none := rfl
  have names : ∀ rest : String,
      bracedNames none (mount ++ rest).toList = bracedNames none rest.toList := by
    intro rest
    rw [String.toList_append, bracedNames_append mountPlain]
  rw [parameterNames, Http.splitOn_path nonempty free, List.filterMap_cons_none noName,
    List.filterMap_map, namesInBraces, names, Http.toList_bracedPath nonempty free,
    bracedNames_segments fun part member => braces_not_mem_segment (tokens part member)]
  rfl

/-! ## Descriptions -/

/-- A written parameter that has a name, stands in the path and is required. -/
structure IsPathParameter (name : String) (written : Json) : Prop where
  name : written.field? "name" = some (.str name)
  place : written.field? "in" = some (.str "path")
  required : written.field? "required" = some (.bool true)

/-- A written operation whose parameters are required ones of its path, with some names in order. An
operation without parameters does not mention them. -/
inductive HasPathParameters (names : List String) (operation : Json) : Prop
  | unmentioned (none : operation.field? "parameters" = none) (empty : names = [])
  | listed (items : List Json) (some : operation.field? "parameters" = some (.arr items))
      (each : List.Forall₂ IsPathParameter names items) (nonempty : names ≠ [])

/-- An operation in a place that describes a route: the place is the path of the route below the
mount, with parameters in braces, and its method; the operation has the text of the key for id, the
module id for its only tag, and the names in braces in its path for required parameters. -/
structure Describes (table : RouteTable) (route : Route)
    (entry : (String × Method) × Operation) : Prop where
  place : entry.1 = (table.mount ++ Http.bracedPath route.path, route.method)
  operationId : entry.2.toJson.field? "operationId" = some (.str route.handlerKey.text)
  tags : entry.2.toJson.field? "tags" = some (.arr [.str table.moduleId])
  parameters : HasPathParameters (namesInBraces entry.1.1) entry.2.toJson

theorem isPathParameter_parameterJson (name : String) :
    IsPathParameter name (parameterJson name) := ⟨rfl, rfl, rfl⟩

/-- An operation is written with its parameters. -/
theorem hasPathParameters_toJson (operation : Operation) :
    HasPathParameters operation.parameters operation.toJson := by
  have written : operation.toJson.field? "parameters" =
      if operation.parameters = [] then none
      else some (.arr (operation.parameters.map parameterJson)) := by
    unfold Operation.toJson Json.field?
    cases operation.parameters with
    | nil => cases operation.takesBody <;> rfl
    | cons name names => rfl
  by_cases empty : operation.parameters = []
  · rw [if_pos empty] at written
    exact .unmentioned written empty
  · rw [if_neg empty] at written
    refine .listed _ written ?_ empty
    rw [List.forall₂_map_right_iff]
    exact List.forall₂_same.mpr fun name _ => isPathParameter_parameterJson name

end OpenApi

namespace RouteTable

open OpenApi

/-- The methods and paths of the routes of a table below its mount. -/
def endpoints (table : RouteTable) : List (String × Method) :=
  table.routes.map fun route => (table.mount ++ route.path, route.method)

/-- The routes of some tables, each with its table. -/
def withRoutes (tables : List RouteTable) : List (RouteTable × Route) :=
  tables.flatMap fun table => table.routes.map fun route => (table, route)

variable {table : RouteTable} {tables : List RouteTable}

/-- A document puts the operation of a route where a router serves the route below the mount. -/
theorem placeOf_eq (rooted : IsRooted table.mount) (route : Route) :
    placeOf table route = (table.mount ++ Http.bracedPath route.path, route.method) := by
  have kept : Text.dropEndWhile (· = '/') table.mount.toList = table.mount.toList :=
    Text.dropEndWhile_of_getLast? fun c last =>
      decide_eq_false fun slash => rooted.2 (slash ▸ last)
  rw [placeOf, describedPath_eq, kept, String.ofList_toList]

theorem IsServable.map_placeOf (servable : table.IsServable) :
    table.routes.map (placeOf table) = table.places :=
  List.map_congr_left fun route _ => placeOf_eq servable.mount.isRooted route

theorem IsServable.isModulePath (servable : table.IsServable) :
    ∀ endpoint ∈ table.endpoints, IsModulePath endpoint.1 :=
  List.forall_mem_map.mpr fun _ => servable.isModulePath_append

/-- The places of a table are its paths below the mount with parameters in braces. -/
theorem IsServable.places_eq (servable : table.IsServable) :
    table.places =
      table.endpoints.map fun endpoint => (Http.bracedPath endpoint.1, endpoint.2) := by
  rw [endpoints, List.map_map]
  refine List.map_congr_left fun route member => ?_
  have modulePath := (servable.paths route member).isModulePath
  rw [Function.comp_apply, servable.mount.bracedPath_append modulePath]

/-- Tables whose routes differ in method or path are served in different places. -/
theorem nodup_places (servable : ∀ table ∈ tables, table.IsServable)
    (apart : (tables.flatMap endpoints).Nodup) : (tables.flatMap places).Nodup := by
  have braced : tables.flatMap places = (tables.flatMap endpoints).map fun endpoint =>
      (Http.bracedPath endpoint.1, endpoint.2) := by
    rw [List.map_flatMap]
    exact List.flatMap_congr fun table member => (servable table member).places_eq
  have plain : ∀ endpoint ∈ tables.flatMap endpoints, IsModulePath endpoint.1 := by
    intro endpoint member
    obtain ⟨table, inTables, inTable⟩ := List.mem_flatMap.mp member
    exact (servable table inTables).isModulePath endpoint inTable
  rw [braced]
  refine apart.map_on fun endpoint member other otherMember same => ?_
  have paths := Http.bracedPath_inj (plain endpoint member).brace_not_mem
    (plain other otherMember).brace_not_mem (congrArg Prod.fst same)
  exact Prod.ext paths (Prod.mk.inj same).2

/-- Tables whose routes differ in method or path are on different mounts, as each has a dashboard.
-/
theorem nodup_mounts (servable : ∀ table ∈ tables, table.IsServable)
    (apart : (tables.flatMap endpoints).Nodup) : (tables.map mount).Nodup := by
  have dashboard : ∀ table ∈ tables, (table.mount ++ "/dashboard", .get) ∈ table.endpoints := by
    intro table member
    obtain ⟨route, inRoutes, endpoint⟩ := (servable table member).dashboard
    have path : route.path = "/dashboard" := congrArg Prod.fst endpoint
    have method : route.method = .get := congrArg Prod.snd endpoint
    exact List.mem_map.mpr ⟨route, inRoutes, by rw [path, method]⟩
  refine List.pairwise_map.mpr ((List.nodup_flatMap.mp apart).2.imp_of_mem ?_)
  intro table other member otherMember disjoint same
  exact disjoint (dashboard table member) (same ▸ dashboard other otherMember)

/-- The operations of a document describe the routes of its tables one by one. -/
theorem forall₂_describes (servable : ∀ table ∈ tables, table.IsServable) :
    List.Forall₂ (fun pair entry => Describes pair.1 pair.2 entry) (withRoutes tables)
      (tables.flatMap operationsOf) := by
  have operations : tables.flatMap operationsOf = (withRoutes tables).map fun pair =>
      (placeOf pair.1 pair.2, operationOf pair.1 pair.2) := by
    rw [withRoutes, List.map_flatMap]
    refine List.flatMap_congr fun table _ => ?_
    rw [operationsOf, List.map_map]
    rfl
  rw [operations, List.forall₂_map_right_iff]
  apply List.forall₂_same.mpr
  rintro ⟨table, route⟩ member
  obtain ⟨_, inTables, inTable⟩ := List.mem_flatMap.mp member
  obtain ⟨_, inRoutes, same⟩ := List.mem_map.mp inTable
  cases same
  have served := servable table inTables
  have place := placeOf_eq served.mount.isRooted route
  have names : (operationOf table route).parameters = namesInBraces (placeOf table route).1 := by
    rw [place, ← parameterNames_eq_namesInBraces served.mount
      (served.paths route inRoutes).isModulePath, operationOf, describedPath_eq]
    rfl
  exact ⟨place, rfl, rfl, names ▸ hasPathParameters_toJson (operationOf table route)⟩

end RouteTable

namespace Http

namespace Router

open OpenApi

variable {tables : List RouteTable} {modules : List EmittedModule}

theorem map_place_eq_flatMap_places (emits : List.Forall₂
      (fun (table : RouteTable) emitted => ∃ binding, table.emit binding = .ok emitted) tables
      modules) :
    (modules.flatMap EmittedModule.entries).map Entry.place = tables.flatMap RouteTable.places := by
  rw [List.map_flatMap, List.flatMap_def, List.flatMap_def]
  refine congrArg List.flatten (Places.map_eq_map_of_forall₂ emits ?_).symm
  rintro table emitted _ ⟨binding, emits⟩
  exact (RouteTable.places_of_emit emits).symm

/-- **Documents.** Let the modules be emitted from tables of which no two routes are on one method
and path below their mounts. Then a router of the modules can be built, with a document or without,
and serves just their routes besides, those of each module path by path; the document of the tables
has its operations in just the places of these routes, no two in one place, and they describe the
routes one by one. -/
theorem document_describes_build
    (compiled : ∀ table ∈ tables, ∃ definition, Compiler.default.compile definition = .ok table)
    (emits : List.Forall₂
      (fun (table : RouteTable) emitted => ∃ binding, table.emit binding = .ok emitted) tables
      modules)
    (apart : (tables.flatMap RouteTable.endpoints).Nodup) (title version : String)
    (served : Option Document) :
    ∃ router, build modules served = .ok router ∧
      router.entries = modules.flatMap EmittedModule.entriesByPath ++ documentEntries served ∧
      router.entries.Perm (modules.flatMap EmittedModule.entries ++ documentEntries served) ∧
      ((listed (document tables title version).paths).map Prod.fst).Perm
        ((modules.flatMap EmittedModule.entries).map Entry.place) ∧
      ((listed (document tables title version).paths).map Prod.fst).Nodup ∧
      ∃ operations, operations.Perm (listed (document tables title version).paths) ∧
        List.Forall₂ (fun pair entry => Describes pair.1 pair.2 entry)
          (RouteTable.withRoutes tables) operations := by
  have servable : ∀ table ∈ tables, table.IsServable := by
    intro table member
    obtain ⟨definition, compiled⟩ := compiled table member
    exact RouteTable.isServable_of_compile compiled
  have mountable : ∀ emitted ∈ modules, emitted.IsMountable := by
    intro emitted member
    obtain ⟨table, inTables, binding, emits⟩ := Places.exists_of_mem_forall₂ emits member
    exact (servable table inTables).isMountable emits
  have mounts : (modules.map EmittedModule.mount).Nodup := by
    have same : tables.map RouteTable.mount = modules.map EmittedModule.mount :=
      Places.map_eq_map_of_forall₂ emits fun _ _ _ ⟨_, emits⟩ =>
        (RouteTable.emits_of_emit emits).2.1.symm
    exact same ▸ RouteTable.nodup_mounts servable apart
  have placesApart := RouteTable.nodup_places servable apart
  have places := map_place_eq_flatMap_places emits
  obtain ⟨router, built, -, entries, regrouped⟩ :=
    @exists_build_eq_ok modules served mountable mounts (places ▸ placesApart)
  have documentPlaces : (tables.flatMap fun table => table.routes.map (placeOf table)) =
      tables.flatMap RouteTable.places :=
    List.flatMap_congr fun table member => (servable table member).map_placeOf
  have operations : (listed (document tables title version).paths).Perm
      (tables.flatMap operationsOf) := listed_document_perm (documentPlaces ▸ placesApart)
  have order : ((listed (document tables title version).paths).map Prod.fst).Perm
      ((modules.flatMap EmittedModule.entries).map Entry.place) := by
    refine (operations.map Prod.fst).trans (.of_eq ?_)
    rw [places, ← documentPlaces, List.map_flatMap]
    refine List.flatMap_congr fun table _ => ?_
    rw [operationsOf, List.map_map]
    rfl
  exact ⟨router, built, entries, regrouped, order, order.nodup_iff.mpr (places ▸ placesApart), _,
    operations.symm, RouteTable.forall₂_describes servable⟩

/-- The shop and the module that is mounted on its resource `reviews` share no method and path, so
that they are served and documented together. -/
theorem document_describes_shop : ∃ (outer inner : RouteTable) (modules : List EmittedModule),
    Compiler.default.compile (Definition.template "shop" "reviews" "tags" "audits") = .ok outer ∧
    Compiler.default.compile reviews = .ok inner ∧
    List.Forall₂ (fun (table : RouteTable) emitted => ∃ binding, table.emit binding = .ok emitted)
      [outer, inner] modules ∧
    ([outer, inner].flatMap RouteTable.endpoints).Nodup ∧
    ∃ router, build modules (some (document [outer, inner] "routes" "1.0.0")) = .ok router ∧
      router.entries = modules.flatMap EmittedModule.entriesByPath ++
        documentEntries (some (document [outer, inner] "routes" "1.0.0")) ∧
      router.entries.Perm (modules.flatMap EmittedModule.entries ++
        documentEntries (some (document [outer, inner] "routes" "1.0.0"))) ∧
      ((listed (document [outer, inner] "routes" "1.0.0").paths).map Prod.fst).Perm
        ((modules.flatMap EmittedModule.entries).map Entry.place) ∧
      ((listed (document [outer, inner] "routes" "1.0.0").paths).map Prod.fst).Nodup ∧
      ∃ operations, operations.Perm (listed (document [outer, inner] "routes" "1.0.0").paths) ∧
        List.Forall₂ (fun pair entry => Describes pair.1 pair.2 entry)
          (RouteTable.withRoutes [outer, inner]) operations := by
  obtain ⟨outer, outerCompiled, checked⟩ := Outcome.exists_of_any_toOption (by decide +kernel :
    ((Compiler.default.compile (Definition.template "shop" "reviews" "tags" "audits")).toOption.any
      fun outer => (Compiler.default.compile reviews).toOption.any fun inner =>
        decide ([outer, inner].flatMap RouteTable.endpoints).Nodup) = true)
  obtain ⟨inner, innerCompiled, apart⟩ := Outcome.exists_of_any_toOption checked
  rw [decide_eq_true_iff] at apart
  obtain ⟨outerModule, outerEmits⟩ := outer.exists_emit_stubsFor
  obtain ⟨innerModule, innerEmits⟩ := inner.exists_emit_stubsFor
  have emits : List.Forall₂
      (fun (table : RouteTable) emitted => ∃ binding, table.emit binding = .ok emitted)
      [outer, inner] [outerModule, innerModule] :=
    .cons ⟨_, outerEmits⟩ (.cons ⟨_, innerEmits⟩ .nil)
  have compiled : ∀ table ∈ [outer, inner],
      ∃ definition, Compiler.default.compile definition = .ok table :=
    List.forall_mem_cons.mpr
      ⟨⟨_, outerCompiled⟩, List.forall_mem_singleton.mpr ⟨_, innerCompiled⟩⟩
  exact ⟨outer, inner, _, outerCompiled, innerCompiled, emits, apart,
    document_describes_build compiled emits apart "routes" "1.0.0" _⟩

end Router

end Http

end ModuleRoutes
