import ModuleRoutes.Proofs.Http.Router

/-!
# Routes by path

Before a module is mounted, its routes are grouped by path: what a path has so far is taken out of a
map and put back with one more method, and then every path is taken out once, in the order in which
the paths were first seen. No route is lost on the way: the router of a module has the entries of
its routes path by path (`ModuleRoutes.Http.Router.ofModule_eq_addAll`), and whenever there is one,
it has them all (`ModuleRoutes.Http.Router.entries_perm_of_ofModule`). There is none where two
routes are on one method and path (`ModuleRoutes.Http.Router.ofModule_eq_error`).
-/

namespace ModuleRoutes

namespace Http

/-- What a route of a module asks a router to serve, before the module is mounted. -/
def entryOf (route : EmittedRoute) : Entry :=
  ⟨bracedPath route.path, route.method, .handler route.handler⟩

/-- The entries of a module by itself, one for each of its routes. -/
def ownEntries (emitted : EmittedModule) : List Entry := emitted.routes.map entryOf

/-- The entries on a path. -/
def entriesOn (entries : List Entry) (path : String) : List Entry :=
  entries.filter fun entry => entry.path = path

/-- What some entries serve on a path. -/
def methodsOn (entries : List Entry) (path : String) : MethodRouter :=
  ⟨(entriesOn entries path).map fun entry => (entry.method, entry.service)⟩

/-- The paths of some entries, each once, in the order in which they first occur. -/
def pathsOf (entries : List Entry) : List String := (entries.map Entry.path).eraseDups

/-- Some entries path by path. -/
def byPath (entries : List Entry) : List Entry := (pathsOf entries).flatMap (entriesOn entries)

variable {entries : List Entry} {entry : Entry} {path : String} {grouping : Grouping}
  {route : EmittedRoute} {emitted : EmittedModule}

theorem mem_pathsOf : path ∈ pathsOf entries ↔ path ∈ entries.map Entry.path := List.mem_eraseDups

/-- Path by path the entries are the same. -/
theorem byPath_perm (entries : List Entry) : (byPath entries).Perm entries :=
  Places.flatMap_filter_perm (Places.nodup_eraseDups _) fun _ member =>
    mem_pathsOf.mpr (List.mem_map_of_mem member)

/-- Changing paths to others, different ones to different ones, changes nothing else. -/
theorem byPath_map {change : String → String} (injective : Function.Injective change)
    (entries : List Entry) :
    byPath (entries.map fun entry => { entry with path := change entry.path }) =
      (byPath entries).map fun entry => { entry with path := change entry.path } := by
  have paths : pathsOf (entries.map fun entry => { entry with path := change entry.path }) =
      (pathsOf entries).map change := by
    rw [pathsOf, pathsOf, ← Places.eraseDups_map injective, List.map_map, List.map_map]
    rfl
  rw [byPath, paths, List.flatMap_map, byPath, List.map_flatMap]
  refine List.flatMap_congr fun path _ => ?_
  rw [entriesOn, entriesOn, List.filter_map]
  congr 2
  funext entry
  simp [injective.eq_iff]

/-- A path that no entry is on has no methods. -/
theorem entriesOn_eq_nil (fresh : path ∉ entries.map Entry.path) : entriesOn entries path = [] := by
  refine List.filter_eq_nil_iff.mpr fun entry member => ?_
  have apart : entry.path ≠ path := fun same => fresh (same ▸ List.mem_map_of_mem member)
  simpa using apart

theorem methodsOn_concat_self (entries : List Entry) (entry : Entry) :
    methodsOn (entries ++ [entry]) entry.path =
      ⟨(methodsOn entries entry.path).services ++ [(entry.method, entry.service)]⟩ := by
  simp [methodsOn, entriesOn]

theorem methodsOn_concat_of_ne (apart : path ≠ entry.path) :
    methodsOn (entries ++ [entry]) path = methodsOn entries path := by
  simp [methodsOn, entriesOn, Ne.symm apart]

theorem any_method_methodsOn : ((methodsOn entries entry.path).services.any fun other =>
    other.1 = entry.method) = decide (entry.place ∈ entries.map Entry.place) := by
  rw [Bool.eq_iff_iff, List.any_eq_true, decide_eq_true_iff]
  simp only [methodsOn, entriesOn, List.mem_map, List.mem_filter, decide_eq_true_eq, Entry.place,
    Prod.mk.injEq]
  constructor
  · rintro ⟨_, ⟨other, ⟨member, path⟩, rfl⟩, method⟩
    exact ⟨other, member, path, method⟩
  · rintro ⟨other, member, path, method⟩
    exact ⟨_, ⟨other, ⟨member, path⟩, rfl⟩, method⟩

/-! ## Grouping -/

namespace Grouping

/-- A grouping of some entries: it has their paths in the order of their first entries, and its map
holds for each path just the methods of the entries on it, in order. -/
structure Groups (grouping : Grouping) (entries : List Entry) : Prop where
  order : grouping.order = pathsOf entries
  holds : ∀ path, grouping.byPath.lookup path =
    if path ∈ entries.map Entry.path then some (methodsOn entries path) else none

theorem groups_empty : empty.Groups [] := ⟨rfl, fun _ => rfl⟩

/-- A grouping with an entry put in: what its path has so far is replaced. -/
theorem Groups.concat (groups : grouping.Groups entries) (entry : Entry) :
    Groups ⟨pathsOf (entries ++ [entry]),
      (entry.path, methodsOn (entries ++ [entry]) entry.path) ::
        (takeOut entry.path grouping.byPath).2⟩ (entries ++ [entry]) := by
  refine ⟨rfl, fun path => ?_⟩
  rw [List.lookup_cons, List.map_append, List.map_singleton]
  by_cases same : path = entry.path
  · subst same
    simp
  · have passed : (path == entry.path) = false := beq_eq_false_iff_ne.mpr same
    simp only [passed, takeOut, List.mem_append, List.mem_singleton, same, or_false]
    rw [Places.lookup_filter_of_ne same, groups.holds, methodsOn_concat_of_ne same]

/-- A route on a new method or path is put in. -/
theorem Groups.add_of_fresh (groups : grouping.Groups entries)
    (fresh : (entryOf route).place ∉ entries.map Entry.place) :
    ∃ next, grouping.add route = .ok next ∧ next.Groups (entries ++ [entryOf route]) := by
  refine ⟨_, ?_, groups.concat (entryOf route)⟩
  have path : (entryOf route).path = bracedPath route.path := rfl
  have holds := groups.holds (bracedPath route.path)
  rw [add, methodsOn_concat_self, pathsOf, List.map_append, List.map_singleton,
    Places.eraseDups_concat, ← pathsOf, ← groups.order, path]
  by_cases seen : bracedPath route.path ∈ entries.map Entry.path
  · have free := @any_method_methodsOn entries (entryOf route)
    rw [decide_eq_false fresh, path] at free
    rw [if_pos seen] at holds ⊢
    simp only [takeOut, holds, MethodRouter.on]
    rw [show route.method = (entryOf route).method from rfl, free]
    rfl
  · rw [if_neg seen] at holds ⊢
    simp only [takeOut, holds, methodsOn, entriesOn_eq_nil seen]
    rfl

/-- A route on a method and path that is in the grouping is refused. -/
theorem Groups.add_of_taken (groups : grouping.Groups entries)
    (taken : (entryOf route).place ∈ entries.map Entry.place) :
    grouping.add route = .error (.overlappingMethod (bracedPath route.path) route.method) := by
  have holds := groups.holds (bracedPath route.path)
  have clash := @any_method_methodsOn entries (entryOf route)
  rw [decide_eq_true taken] at clash
  have seen : bracedPath route.path ∈ entries.map Entry.path := by
    obtain ⟨other, member, same⟩ := List.mem_map.mp taken
    exact List.mem_map.mpr ⟨other, member, congrArg Prod.fst same⟩
  rw [if_pos seen] at holds
  simp only [add, takeOut, holds, MethodRouter.on]
  rw [show bracedPath route.path = (entryOf route).path from rfl,
    show route.method = (entryOf route).method from rfl, clash]
  rfl

/-- Grouping puts in the entries of routes. -/
theorem putsIn_add : PutsIn add entryOf (fun _ => True) Groups :=
  ⟨fun groups _ => groups.add_of_fresh, fun groups _ => groups.add_of_taken⟩

end Grouping

/-! ## The router of a module -/

namespace Router

variable {router inner next : Router}

/-- The entries on a path are what its methods are given. -/
theorem entriesOn_eq_map (entries : List Entry) (path : String) :
    entriesOn entries path =
      (methodsOn entries path).services.map fun service => ⟨path, service.1, service.2⟩ := by
  rw [methodsOn, List.map_map]
  refine (List.map_id _).symm.trans (List.map_congr_left fun entry member => ?_)
  obtain ⟨-, path⟩ := List.mem_filter.mp member
  rw [← of_decide_eq_true path]
  rfl

theorem route_methodsOn (router : Router) (entries : List Entry) (path : String) :
    router.route path (methodsOn entries path) = router.addAll (entriesOn entries path) := by
  rw [entriesOn_eq_map, addAll, List.foldlM_map]
  rfl

/-- Different paths that a map holds are all taken out of it. -/
theorem routeAll_eq_addAll {order : List String} {byPath : List (String × MethodRouter)}
    (different : order.Nodup)
    (holds : ∀ path ∈ order, byPath.lookup path = some (methodsOn entries path)) :
    router.routeAll byPath order = router.addAll (order.flatMap (entriesOn entries)) := by
  induction order generalizing router byPath with
  | nil => rfl
  | cons path order ih =>
      obtain ⟨fresh, later⟩ := List.nodup_cons.mp different
      obtain ⟨here, others⟩ := List.forall_mem_cons.mp holds
      rw [routeAll, takeOut, here, List.flatMap_cons, addAll_append, ← route_methodsOn]
      dsimp only
      refine congrArg _ (funext fun next => ih later fun other member => ?_)
      have apart : other ≠ path := fun same => fresh (same ▸ member)
      exact (Places.lookup_filter_of_ne apart).trans (others other member)

/-- The router of a module whose routes are on different methods and paths has their entries path by
path. -/
theorem ofModule_eq_addAll (apart : ((ownEntries emitted).map Entry.place).Nodup) :
    ofModule emitted = empty.addAll (byPath (ownEntries emitted)) := by
  obtain ⟨grouping, grouped, groups⟩ :=
    Grouping.putsIn_add.foldlM_eq_ok Grouping.groups_empty (fun _ _ => trivial) apart
  have groups : grouping.Groups (ownEntries emitted) := groups
  rw [ofModule, grouped, byPath, ← groups.order]
  refine routeAll_eq_addAll (groups.order ▸ Places.nodup_eraseDups _) fun path member => ?_
  rw [groups.order, mem_pathsOf] at member
  exact (groups.holds path).trans (if_pos member)

/-- A module of which two routes are on one method and path has no router. -/
theorem ofModule_eq_error (meet : ¬((ownEntries emitted).map Entry.place).Nodup) :
    ∃ entry ∈ ownEntries emitted,
      List.Duplicate entry.place ((ownEntries emitted).map Entry.place) ∧
        ofModule emitted = .error (.overlappingMethod entry.path entry.method) := by
  obtain ⟨route, member, duplicate, refused⟩ :=
    Grouping.putsIn_add.foldlM_eq_error Grouping.groups_empty (fun _ _ => trivial)
      List.nodup_nil meet
  refine ⟨entryOf route, List.mem_map_of_mem member, duplicate, ?_⟩
  rw [ofModule, refused]
  rfl

theorem entries_of_add (added : router.add entry.path entry.method entry.service = .ok next) :
    next.entries = router.entries ++ [entry] := by
  unfold add at added
  split at added
  · cases added
  · split at added
    · cases added
    · split at added
      · cases added
      · split at added
        · cases added
        · cases added
          exact List.map_append

theorem entries_of_addAll (added : router.addAll entries = .ok next) :
    next.entries = router.entries ++ entries := by
  induction entries generalizing router with
  | nil =>
      cases added
      exact (List.append_nil _).symm
  | cons entry entries ih =>
      rw [addAll, List.foldlM_cons] at added
      obtain ⟨middle, first, rest⟩ := Outcome.bind_eq_ok_iff.mp added
      rw [ih rest, entries_of_add first, List.append_assoc, List.singleton_append]

/-- **Regrouping.** A router of a module has the entries of all its routes, each once. -/
theorem entries_perm_of_ofModule (built : ofModule emitted = .ok inner) :
    inner.entries.Perm (ownEntries emitted) := by
  by_cases apart : ((ownEntries emitted).map Entry.place).Nodup
  · rw [ofModule_eq_addAll apart] at built
    rw [entries_of_addAll built]
    exact byPath_perm _
  · obtain ⟨entry, -, -, refused⟩ := ofModule_eq_error apart
    rw [refused] at built
    cases built

end Router

end Http

end ModuleRoutes
