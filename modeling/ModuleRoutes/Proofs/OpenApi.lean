import ModuleRoutes.OpenApi
import ModuleRoutes.Proofs.Encoding.Fields
import ModuleRoutes.Proofs.Http.Braces

/-!
# The operations of a document

Documents put parameters in braces in one pass over the segments of a path that also takes their
names, and routers segment by segment; both write the same path
(`ModuleRoutes.OpenApi.describedPath_eq`). Routes of tables that are in different places of a
document are all listed there, one operation for each
(`ModuleRoutes.OpenApi.listed_document_perm`). Routes of one table that differ in method or path are
in different places (`ModuleRoutes.OpenApi.operationIds_perm`).
-/

namespace ModuleRoutes

namespace OpenApi

open Encoding

/-! ## Paths of documents and of routers -/

/-- The name of the parameter that a segment stands for. -/
def parameterName? (part : List Char) : Option (List Char) :=
  match part with
  | ':' :: name => some name
  | _ => none

theorem parameterName?_of_ne {c : Char} (plain : c ≠ ':') (rest : List Char) :
    parameterName? (c :: rest) = none := by
  simp [parameterName?, plain]

def parameterNames (path : String) : List String :=
  ((Text.splitOn '/' path.toList).filterMap parameterName?).map String.ofList

theorem describedSegments_eq (parts : List (List Char)) :
    describedSegments parts = (parts.map Http.bracedSegment, parts.filterMap parameterName?) := by
  induction parts with
  | nil => rfl
  | cons part parts ih =>
      rw [describedSegments, ih, List.map_cons, List.filterMap_cons]
      cases part with
      | nil => rfl
      | cons c name =>
          by_cases colon : c = ':'
          · subst colon
            rfl
          · rw [Http.bracedSegment_of_ne colon, parameterName?_of_ne colon]
            simp [colon]

/-- Documents and routers write the path of a route alike, below the mount without its slashes. -/
theorem describedPath_eq (mount path : String) :
    describedPath mount path =
      (String.ofList (Text.dropEndWhile (· = '/') mount.toList) ++ Http.bracedPath path,
        parameterNames path) := by
  rw [describedPath, describedSegments_eq, Http.bracedPath, ← String.ofList_append]
  rfl

/-! ## Operations by path and method -/

/-- The operations of some paths, each with its path and its method. -/
def listed (paths : List (String × PathItem)) : List ((String × Method) × Operation) :=
  paths.flatMap fun entry => entry.2.operations.map fun pair => ((entry.1, pair.1), pair.2)

/-- Where a document puts the operation of a route. -/
def placeOf (table : RouteTable) (route : Route) : String × Method :=
  ((describedPath table.mount route.path).1, route.method)

/-- What a document says of a route. -/
def operationOf (table : RouteTable) (route : Route) : Operation :=
  operation table route (describedPath table.mount route.path).2

variable {paths : List (String × PathItem)} {table : RouteTable}

theorem listed_cons (path : String) (item : PathItem) :
    listed ((path, item) :: paths) =
      (item.operations.map fun pair => ((path, pair.1), pair.2)) ++ listed paths :=
  List.flatMap_cons

theorem listed_perm {other : List (String × PathItem)} (same : paths.Perm other) :
    (listed paths).Perm (listed other) := same.flatMap_right _

/-- Setting an operation in a new place adds it. -/
theorem listed_setOperation_perm {path : String} {method : Method} {operation : Operation}
    (ascending : Ascending paths) (fresh : (path, method) ∉ (listed paths).map Prod.fst) :
    (listed (setOperation paths path method operation)).Perm
      (((path, method), operation) :: listed paths) := by
  have before : (listed paths).Perm (listed ((path, (paths.lookup path).getD ⟨[]⟩) ::
      paths.filter fun entry => entry.1 ≠ path)) := by
    have parts := listed_perm (perm_lookup ascending path)
    cases found : paths.lookup path with
    | none => rw [found] at parts; exact parts
    | some item => rw [found] at parts; exact parts
  have after : (listed (setOperation paths path method operation)).Perm
      (listed ((path, ((paths.lookup path).getD ⟨[]⟩).set method operation) ::
        paths.filter fun entry => entry.1 ≠ path)) := listed_perm (setField_perm ascending)
  generalize (paths.lookup path).getD ⟨[]⟩ = item at before after
  rw [listed_cons] at before after
  -- The place is new, so the item on this path has no operation of the method to replace.
  have kept : (item.operations.filter fun entry => entry.1 ≠ method) = item.operations := by
    refine List.filter_eq_self.mpr fun entry member => ?_
    have held : ((path, entry.1), entry.2) ∈ listed paths :=
      before.mem_iff.mpr (List.mem_append_left _ (List.mem_map.mpr ⟨entry, member, rfl⟩))
    have apart : entry.1 ≠ method := fun same =>
      fresh (List.mem_map.mpr ⟨_, held, Prod.ext rfl same⟩)
    simpa using apart
  rw [PathItem.set, kept, List.map_cons, List.cons_append] at after
  exact after.trans (before.symm.cons _)

theorem listed_foldl_perm {routes : List Route} (ascending : Ascending paths)
    (fresh : ((listed paths).map Prod.fst ++ routes.map (placeOf table)).Nodup) :
    (listed (routes.foldl (fun paths route => setOperation paths
      (describedPath table.mount route.path).1 route.method (operationOf table route)) paths)).Perm
      (listed paths ++ routes.map fun route => (placeOf table route, operationOf table route)) := by
  induction routes generalizing paths with
  | nil => rw [List.map_nil, List.append_nil]; exact .refl _
  | cons route routes ih =>
      have apart : placeOf table route ∉ (listed paths).map Prod.fst := by
        intro held
        exact (List.nodup_append.mp fresh).2.2 _ held _ List.mem_cons_self rfl
      have added := @listed_setOperation_perm paths _ _ (operationOf table route) ascending apart
      have places : ((listed (setOperation paths (describedPath table.mount route.path).1
          route.method (operationOf table route))).map Prod.fst ++ routes.map (placeOf table)).Perm
            ((listed paths).map Prod.fst ++ (route :: routes).map (placeOf table)) :=
        ((added.map Prod.fst).append_right _).trans List.perm_middle.symm
      refine (ih (ascending_setField ascending) (places.nodup_iff.mpr fresh)).trans ?_
      exact (added.append_right _).trans List.perm_middle.symm

theorem ascending_addTable (ascending : Ascending paths) : Ascending (addTable paths table) := by
  unfold addTable
  generalize table.routes = routes
  induction routes generalizing paths with
  | nil => exact ascending
  | cons route routes ih => exact ih (ascending_setField ascending)

/-- The operations of a table, each with its place. -/
def operationsOf (table : RouteTable) : List ((String × Method) × Operation) :=
  table.routes.map fun route => (placeOf table route, operationOf table route)

/-- Tables whose operations are all in new places add them all. -/
theorem listed_foldl_addTable_perm {tables : List RouteTable} (ascending : Ascending paths)
    (fresh : ((listed paths).map Prod.fst ++
      tables.flatMap fun table => table.routes.map (placeOf table)).Nodup) :
    (listed (tables.foldl addTable paths)).Perm (listed paths ++ tables.flatMap operationsOf) := by
  induction tables generalizing paths with
  | nil => rw [List.flatMap_nil, List.append_nil]; exact .refl _
  | cons table tables ih =>
      rw [List.flatMap_cons, ← List.append_assoc] at fresh
      have added : (listed (addTable paths table)).Perm (listed paths ++ operationsOf table) :=
        listed_foldl_perm ascending (List.nodup_append.mp fresh).1
      have places : ((listed (addTable paths table)).map Prod.fst).Perm
          ((listed paths).map Prod.fst ++ table.routes.map (placeOf table)) := by
        refine (added.map Prod.fst).trans (.of_eq ?_)
        rw [List.map_append, operationsOf, List.map_map]
        rfl
      rw [List.foldl_cons, List.flatMap_cons, ← List.append_assoc]
      refine (ih (ascending_addTable ascending) ?_).trans (added.append_right _)
      exact (places.append_right _).nodup_iff.mpr fresh

/-- A document lists the operations of its tables, one for each route, when no two are in one place.
-/
theorem listed_document_perm {tables : List RouteTable} {title version : String}
    (apart : (tables.flatMap fun table => table.routes.map (placeOf table)).Nodup) :
    (listed (document tables title version).paths).Perm (tables.flatMap operationsOf) :=
  @listed_foldl_addTable_perm [] _ List.Pairwise.nil apart

/-- The ids of the operations of a document. -/
def Document.operationIds (document : Document) : List String :=
  (listed document.paths).map fun entry => entry.2.operationId

/-- A document of a table whose routes differ in method or path has one operation for each route,
with the text of its key as its id. -/
theorem operationIds_perm {title version : String}
    (distinct : (table.routes.map Route.endpoint).Nodup)
    (plain : ∀ route ∈ table.routes, '\x7b' ∉ route.path.toList) :
    (document [table] title version).operationIds.Perm (table.handlerKeys.map HandlerKey.text) := by
  have places : (table.routes.map (placeOf table)).Nodup := by
    refine List.pairwise_map.mpr ((List.pairwise_map.mp distinct).imp_of_mem ?_)
    intro first second firstMember secondMember apart same
    have paths : (describedPath table.mount first.path).1 =
        (describedPath table.mount second.path).1 := (Prod.mk.inj same).1
    have braced : Http.bracedPath first.path = Http.bracedPath second.path := by
      apply String.toList_injective
      simpa [describedPath_eq] using congrArg String.toList paths
    have methods : first.method = second.method := congrArg Prod.snd same
    refine apart (Prod.ext ?_ methods)
    exact Http.bracedPath_inj (plain first firstMember) (plain second secondMember) braced
  have operations : (listed (document [table] title version).paths).Perm (operationsOf table) := by
    rw [← List.flatMap_singleton operationsOf table]
    exact listed_document_perm (by rwa [List.flatMap_singleton])
  refine (operations.map _).trans (.of_eq ?_)
  rw [operationsOf, List.map_map, RouteTable.handlerKeys, List.map_map]
  rfl

end OpenApi

end ModuleRoutes
