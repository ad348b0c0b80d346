import Mathlib.Data.List.NodupEquivFin
import Mathlib.Tactic.TFAE
import ModuleRoutes.Proofs.Definition.Slots
import ModuleRoutes.Proofs.Handler.Emission
import ModuleRoutes.Proofs.Http.Mounting

/-!
# Building routers of compiled modules

A router looks at the mounts of its modules only, while routes of two modules can meet where one is
mounted below the other. Building is safe exactly if no two routes meet
(`ModuleRoutes.Http.Router.build_tfae`), and so it is wherever no mount is below another one
(`ModuleRoutes.Http.Router.buildsSafely_of_unnested`). Different mounts are not enough
(`ModuleRoutes.Http.Router.build_refuses_analytics`).
-/

namespace ModuleRoutes

/-! ## Compiled modules -/

/-- A module that is emitted from a table compiled for the default prefix. -/
def EmittedModule.IsCompiled (emitted : EmittedModule) : Prop :=
  ∃ definition table binding, Compiler.default.compile definition = .ok table ∧
    table.emit binding = .ok emitted

/-- A module that is emitted with placeholders from a table compiled for the default prefix. -/
def EmittedModule.IsStubOf (emitted : EmittedModule) (definition : Definition) : Prop :=
  ∃ table, Compiler.default.compile definition = .ok table ∧
    table.emit (Binding.stubsFor table) = .ok emitted

theorem IsRoutePath.isModulePath {path : String} (routePath : IsRoutePath path) :
    IsModulePath path :=
  ⟨_, routePath.spelled, routePath.nonempty, routePath.tokens, routePath.count_item_le⟩

theorem isMountPath_mountOf {definition normal : Definition}
    (normalized : definition.normalize = .ok normal) :
    IsMountPath (Compiler.default.mountOf normal) := by
  have isToken := (Definition.tokens_of_normalize normalized).1
  obtain ⟨mount, _, moduleId, mounted, _, _, rfl⟩ := Definition.normalize_eq_ok_iff.mp normalized
  unfold Compiler.mountOf
  rcases Outcome.optional_mapM_eq_ok_iff.mp mounted with ⟨_, rfl⟩ | ⟨raw, given, _, spelled, rfl⟩
  · refine ⟨["api", moduleId], ?_, List.cons_ne_nil _ _, ?_⟩
    · rw [Option.getD_none, Section.joined_pair, ← String.append_assoc, ← String.append_assoc]
      rfl
    · exact List.forall_mem_cons.mpr ⟨by decide, List.forall_mem_singleton.mpr isToken⟩
  · exact Name.exists_tokens_of_normalizeMount spelled

/-- A table that can be served below its mount: mount and paths have tokens for segments, no two
routes are on one method and path, and one route is the dashboard. -/
structure RouteTable.IsServable (table : RouteTable) : Prop where
  mount : IsMountPath table.mount
  paths : ∀ route ∈ table.routes, IsRoutePath route.path
  distinct : (table.routes.map Route.endpoint).Nodup
  dashboard : ∃ route ∈ table.routes, route.endpoint = ("/dashboard", .get)

theorem RouteTable.isServable_of_compile {definition : Definition} {table : RouteTable}
    (compiled : Compiler.default.compile definition = .ok table) : table.IsServable := by
  obtain ⟨normal, normalized, filled, keeps, distinct, same⟩ :=
    Compiler.compile_eq_ok_iff.mp compiled
  have paths : ∀ route ∈ table.routes, IsRoutePath route.path :=
    fun _ => Compiler.isRoutePath_of_compile compiled
  subst same
  exact
    { mount := isMountPath_mountOf normalized
      paths := paths
      distinct := distinct
      dashboard := Definition.exists_dashboard_mem_layout filled keeps }

theorem RouteTable.IsServable.isModulePath_append {table : RouteTable} {route : Route}
    (servable : table.IsServable) (member : route ∈ table.routes) :
    IsModulePath (table.mount ++ route.path) :=
  servable.mount.isModulePath_append (servable.paths route member).isModulePath

theorem RouteTable.IsServable.isMountable {table : RouteTable} {binding : Binding}
    {emitted : EmittedModule} (servable : table.IsServable)
    (emits : table.emit binding = .ok emitted) : emitted.IsMountable := by
  obtain ⟨-, mount, pointwise⟩ := RouteTable.emits_of_emit emits
  have places : emitted.routes.map (fun route => (route.path, route.method)) =
      table.routes.map Route.endpoint :=
    (Places.map_eq_map_of_forall₂ pointwise fun _ _ _ emits => by
      rw [Route.endpoint, emits.path, emits.method]).symm
  exact
    { mount := mount ▸ servable.mount
      paths := by
        intro route member
        obtain ⟨laid, inTable, emits⟩ := Places.exists_of_mem_forall₂ pointwise member
        rw [emits.path]
        exact (servable.paths laid inTable).isModulePath
      distinct := places ▸ servable.distinct }

theorem EmittedModule.IsCompiled.isMountable {emitted : EmittedModule}
    (compiled : emitted.IsCompiled) : emitted.IsMountable := by
  obtain ⟨_, _, _, compiled, emits⟩ := compiled
  exact (RouteTable.isServable_of_compile compiled).isMountable emits

/-- The places where a table is served: its paths below the mount with parameters in braces. -/
def RouteTable.places (table : RouteTable) : List (String × Method) :=
  table.routes.map fun route => (table.mount ++ Http.bracedPath route.path, route.method)

/-- A module that is emitted from a table is served in the places of the table. -/
theorem RouteTable.places_of_emit {table : RouteTable} {binding : Binding} {emitted : EmittedModule}
    (emits : table.emit binding = .ok emitted) :
    emitted.entries.map Http.Entry.place = table.places := by
  obtain ⟨-, mount, pointwise⟩ := RouteTable.emits_of_emit emits
  rw [EmittedModule.entries, List.map_map, places]
  refine (Places.map_eq_map_of_forall₂ pointwise fun route _ _ emits => ?_).symm
  rw [Function.comp_apply, Http.Entry.place, emits.path, emits.method, mount]

theorem EmittedModule.IsStubOf.isCompiled {emitted : EmittedModule} {definition : Definition}
    (stub : emitted.IsStubOf definition) : emitted.IsCompiled := by
  obtain ⟨table, compiled, emits⟩ := stub
  exact ⟨definition, table, _, compiled, emits⟩

/-- A definition that compiles can be emitted with placeholders, and a property of the mount and the
places of the table is one of the module. -/
theorem EmittedModule.exists_isStubOf (definition : Definition)
    (property : String → List (String × Method) → Bool)
    (checked : ((Compiler.default.compile definition).toOption.any fun table =>
      property table.mount (table.routes.map fun route =>
        (table.mount ++ Http.bracedPath route.path, route.method))) = true) :
    ∃ emitted : EmittedModule, emitted.IsStubOf definition ∧
      property emitted.mount (emitted.entries.map Http.Entry.place) = true := by
  obtain ⟨table, compiled, checked⟩ := Outcome.exists_of_any_toOption checked
  obtain ⟨emitted, emits⟩ := table.exists_emit_stubsFor
  obtain ⟨-, mount, -⟩ := RouteTable.emits_of_emit emits
  refine ⟨emitted, ⟨table, compiled, emits⟩, ?_⟩
  rw [mount, RouteTable.places_of_emit emits]
  exact checked

namespace Http

namespace Router

variable {modules : List EmittedModule}

/-- The entry of a document, if there is one. -/
def documentEntries (document : Option OpenApi.Document) : List Entry :=
  document.toList.map fun document => ⟨documentPath, .get, .document document.toJson.compact⟩

theorem build_eq (mountable : ∀ emitted ∈ modules, emitted.IsMountable)
    (document : Option OpenApi.Document) :
    build modules document =
      empty.addAll
          ((EmittedModule.beforeRepeat [] modules).flatMap EmittedModule.entriesByPath) >>=
        fun next =>
          match EmittedModule.firstRepeat? [] modules with
          | some mount => .error (.duplicateMount mount)
          | none => next.addAll (documentEntries document) := by
  rw [build, mountAll_eq mountable, bind_assoc]
  refine congrArg _ (funext fun next => ?_)
  cases EmittedModule.firstRepeat? [] modules with
  | some mount => rfl
  | none =>
    cases document with
    | none => rfl
    | some document =>
      exact (bind_pure (next.add documentPath .get (.document document.toJson.compact))).symm

theorem isStored_documentPath :
    IsStored documentPath (documentPath.toList.map .literal) := by
  have checked : (documentPath.toList.all fun c => decide (c ≠ '\x7b' ∧ c ≠ '\x7d')) = true := by
    decide
  have noBrace : ∀ c ∈ documentPath.toList, c ≠ '\x7b' ∧ c ≠ '\x7d' :=
    fun c member => of_decide_eq_true (List.all_eq_true.mp checked c member)
  have noParameter : (documentPath.toList.map Piece.literal).countP Piece.isParameter = 0 :=
    List.countP_eq_zero.mpr (List.forall_mem_map.mpr fun _ _ => Bool.false_ne_true)
  exact
    { allowed := by decide
      read := by
        have literals := read?_literals noBrace []
        rw [List.append_nil, read?_nil, Option.map_some, List.append_nil] at literals
        exact Pattern.ofPath?_eq_some literals (noParameter.trans_le (Nat.zero_le _))
      plain := List.forall_mem_map.mpr fun _ _ => trivial
      chars := by rw [List.flatMap_map]; simp [Piece.chars] }

theorem isStored_documentEntries (document : Option OpenApi.Document) :
    ∀ entry ∈ documentEntries document, entry.IsStored := by
  intro entry member
  obtain ⟨document, _, rfl⟩ := List.mem_map.mp member
  exact ⟨_, isStored_documentPath⟩

/-- No module serves the path of the document, which holds a dot. -/
theorem path_ne_documentPath {emitted : EmittedModule} (mountable : emitted.IsMountable) :
    ∀ entry ∈ emitted.entries, entry.path ≠ documentPath := by
  intro entry member same
  obtain ⟨route, inRoutes, rfl⟩ := List.mem_map.mp member
  dsimp only at same
  have modulePath := mountable.paths route inRoutes
  have noDot := dot_not_mem_bracedPath (mountable.mount.isModulePath_append modulePath)
  rw [mountable.mount.bracedPath_append modulePath, same] at noDot
  exact noDot (by decide)

/-! ## Building -/

/-- Modules whose routes, up to the first mount that is taken, are on different methods and paths
below their mounts. -/
def PlacesApart (modules : List EmittedModule) : Prop :=
  (((EmittedModule.beforeRepeat [] modules).flatMap EmittedModule.entries).map Entry.place).Nodup

/-- What building a router of some modules is for: modules on different mounts are all served, each
route below its mount by its own handler, the routes of a module path by path, and modules that
share a mount are reported. -/
structure BuildsSafely (modules : List EmittedModule) (document : Option OpenApi.Document) :
    Prop where
  serves : (modules.map EmittedModule.mount).Nodup → ∃ router,
    build modules document = .ok router ∧
      router.entries = modules.flatMap EmittedModule.entriesByPath ++ documentEntries document ∧
      router.entries.Perm (modules.flatMap EmittedModule.entries ++ documentEntries document)
  reports : ¬(modules.map EmittedModule.mount).Nodup → ∃ mount,
    List.Duplicate mount (modules.map EmittedModule.mount) ∧
      build modules document = .error (.duplicateMount mount)

variable {document : Option OpenApi.Document}

theorem isStored_beforeRepeat (mountable : ∀ emitted ∈ modules, emitted.IsMountable) :
    ∀ entry ∈ (EmittedModule.beforeRepeat [] modules).flatMap EmittedModule.entriesByPath,
      entry.IsStored := by
  intro entry member
  obtain ⟨emitted, before, inEntries⟩ :=
    List.mem_flatMap.mp ((EmittedModule.flatMap_entriesByPath_perm _).mem_iff.mp member)
  exact (mountable emitted ((EmittedModule.beforeRepeat_prefix [] modules).subset before)).isStored
    entry inEntries

/-- Path by path, routes are in different places if they are. -/
theorem nodup_entriesByPath
    (apart : ((modules.flatMap EmittedModule.entries).map Entry.place).Nodup) :
    ((modules.flatMap EmittedModule.entriesByPath).map Entry.place).Nodup :=
  ((EmittedModule.flatMap_entriesByPath_perm modules).map Entry.place).nodup_iff.mpr apart

theorem nodup_append_document (mountable : ∀ emitted ∈ modules, emitted.IsMountable)
    (apart : ((modules.flatMap EmittedModule.entries).map Entry.place).Nodup) :
    ((modules.flatMap EmittedModule.entries ++ documentEntries document).map
      Entry.place).Nodup := by
  rw [List.map_append]
  refine apart.append ?_ ?_
  · cases document with
    | none => exact List.nodup_nil
    | some document => exact List.nodup_singleton _
  · intro place inModules inDocument
    obtain ⟨entry, member, rfl⟩ := List.mem_map.mp inModules
    obtain ⟨emitted, inList, inEntries⟩ := List.mem_flatMap.mp member
    obtain ⟨other, isDocument, same⟩ := List.mem_map.mp inDocument
    obtain ⟨_, _, rfl⟩ := List.mem_map.mp isDocument
    exact path_ne_documentPath (mountable emitted inList) entry inEntries
      (congrArg Prod.fst same).symm

/-- A router of modules on different mounts, whose routes are in different places, serves them and
the document. -/
theorem exists_build_eq_ok (mountable : ∀ emitted ∈ modules, emitted.IsMountable)
    (different : (modules.map EmittedModule.mount).Nodup)
    (apart : ((modules.flatMap EmittedModule.entries).map Entry.place).Nodup) :
    ∃ router, build modules document = .ok router ∧ router.IsSound ∧
      router.entries = modules.flatMap EmittedModule.entriesByPath ++ documentEntries document ∧
      router.entries.Perm (modules.flatMap EmittedModule.entries ++ documentEntries document) := by
  have stored := isStored_beforeRepeat mountable
  have built := build_eq mountable document
  have regrouped := (EmittedModule.flatMap_entriesByPath_perm modules).append_right
    (documentEntries document)
  rw [EmittedModule.beforeRepeat_of_nodup_mounts different] at stored built
  obtain ⟨next, added, sound, entries⟩ :=
    addAll_eq_ok isSound_empty stored (nodup_entriesByPath apart)
  rw [added, EmittedModule.firstRepeat?_of_nodup_mounts different] at built
  have entries : next.entries = modules.flatMap EmittedModule.entriesByPath := entries
  have documentApart := (regrouped.map Entry.place).nodup_iff.mpr
    (nodup_append_document mountable apart)
  obtain ⟨router, complete, routerSound, allEntries⟩ := addAll_eq_ok sound
    (isStored_documentEntries document) (entries ▸ documentApart)
  rw [entries] at allEntries
  exact ⟨router, built.trans complete, routerSound, allEntries, allEntries ▸ regrouped⟩

theorem buildsSafely_of_placesApart (mountable : ∀ emitted ∈ modules, emitted.IsMountable)
    (apart : PlacesApart modules) : BuildsSafely modules document := by
  constructor
  · intro different
    rw [PlacesApart, EmittedModule.beforeRepeat_of_nodup_mounts different] at apart
    obtain ⟨router, built, -, served⟩ := exists_build_eq_ok mountable different apart
    exact ⟨router, built, served⟩
  · intro shared
    obtain ⟨next, added, -⟩ :=
      addAll_eq_ok isSound_empty (isStored_beforeRepeat mountable) (nodup_entriesByPath apart)
    cases found : EmittedModule.firstRepeat? [] modules with
    | none =>
      have all := EmittedModule.beforeRepeat_of_firstRepeat?_eq_none found
      exact absurd (all ▸ (EmittedModule.nodup_mounts_beforeRepeat [] modules).1) shared
    | some mount =>
      have duplicate : List.Duplicate mount (modules.map EmittedModule.mount) :=
        (EmittedModule.duplicate_of_firstRepeat? found).resolve_left fun taken => nomatch taken.1
      refine ⟨mount, duplicate, ?_⟩
      rw [build_eq mountable, added, found]
      rfl

theorem build_eq_error_of_not_placesApart (mountable : ∀ emitted ∈ modules, emitted.IsMountable)
    (meet : ¬PlacesApart modules) (document : Option OpenApi.Document) :
    ∃ entry ∈ (EmittedModule.beforeRepeat [] modules).flatMap EmittedModule.entries,
      List.Duplicate entry.place
          (((EmittedModule.beforeRepeat [] modules).flatMap EmittedModule.entries).map
            Entry.place) ∧
        build modules document = .error (.overlappingMethod entry.path entry.method) := by
  have regrouped :=
    EmittedModule.flatMap_entriesByPath_perm (EmittedModule.beforeRepeat [] modules)
  obtain ⟨entry, member, duplicate, refused⟩ := addAll_eq_error isSound_empty
    (isStored_beforeRepeat mountable) List.nodup_nil
    (mt (regrouped.map Entry.place).nodup_iff.mp meet)
  refine ⟨entry, regrouped.mem_iff.mp member,
    Places.duplicate_of_perm (regrouped.map Entry.place) duplicate, ?_⟩
  rw [build_eq mountable, refused]
  rfl

/-- Modules can only meet where one is mounted below another one. -/
theorem placesApart_of_unnested (mountable : ∀ emitted ∈ modules, emitted.IsMountable)
    (unnested : ∀ emitted ∈ modules, ∀ other ∈ modules, ¬IsBelow emitted.mount other.mount) :
    PlacesApart modules := by
  have inModules := (EmittedModule.beforeRepeat_prefix [] modules).subset
  rw [PlacesApart, List.map_flatMap, List.nodup_flatMap]
  refine ⟨fun emitted before => (mountable emitted (inModules before)).nodup_places, ?_⟩
  have apart :=
    List.pairwise_map.mp (EmittedModule.nodup_mounts_beforeRepeat [] modules).1
  refine apart.imp_of_mem fun {emitted other} before otherBefore different => ?_
  intro place inFirst inSecond
  obtain ⟨entry, member, rfl⟩ := List.mem_map.mp inFirst
  obtain ⟨otherEntry, otherMember, same⟩ := List.mem_map.mp inSecond
  rcases (mountable emitted (inModules before)).eq_or_isBelow_of_mem
    (mountable other (inModules otherBefore)) member otherMember (congrArg Prod.fst same).symm
    with shared | below | above
  · exact different shared
  · exact unnested emitted (inModules before) other (inModules otherBefore) below
  · exact unnested other (inModules otherBefore) emitted (inModules before) above

/-- Compiled modules of which none is mounted below another one are built safely. -/
theorem buildsSafely_of_unnested (compiled : ∀ emitted ∈ modules, emitted.IsCompiled)
    (unnested : ∀ emitted ∈ modules, ∀ other ∈ modules, ¬IsBelow emitted.mount other.mount) :
    BuildsSafely modules document := by
  have mountable : ∀ emitted ∈ modules, emitted.IsMountable :=
    fun emitted member => (compiled emitted member).isMountable
  exact buildsSafely_of_placesApart mountable (placesApart_of_unnested mountable unnested)

/-- **Building.** For compiled modules the following are the same: their routes, up to the first
mount that is taken, are on different methods and paths; building a router of them fails for a
shared mount or not at all; and it does what it is for. Otherwise it is refused where two of these
routes meet. -/
theorem build_tfae (compiled : ∀ emitted ∈ modules, emitted.IsCompiled)
    (document : Option OpenApi.Document) :
    [PlacesApart modules,
      ∀ fault, build modules document = .error fault → ∃ mount, fault = .duplicateMount mount,
      BuildsSafely modules document].TFAE ∧
    (¬PlacesApart modules →
      ∃ entry ∈ (EmittedModule.beforeRepeat [] modules).flatMap EmittedModule.entries,
        List.Duplicate entry.place
            (((EmittedModule.beforeRepeat [] modules).flatMap EmittedModule.entries).map
              Entry.place) ∧
          build modules document = .error (.overlappingMethod entry.path entry.method)) := by
  have mountable : ∀ emitted ∈ modules, emitted.IsMountable :=
    fun emitted member => (compiled emitted member).isMountable
  have refused := fun meet => build_eq_error_of_not_placesApart mountable meet document
  refine ⟨?_, refused⟩
  tfae_have 1 → 3 := buildsSafely_of_placesApart mountable
  tfae_have 3 → 2 := by
    intro safe fault failed
    by_cases different : (modules.map EmittedModule.mount).Nodup
    · obtain ⟨router, built, -⟩ := safe.serves different
      rw [built] at failed
      cases failed
    · obtain ⟨mount, -, reported⟩ := safe.reports different
      rw [reported] at failed
      exact ⟨mount, (Except.error.inj failed).symm⟩
  tfae_have 2 → 1 := by
    intro reported
    by_contra meet
    obtain ⟨entry, -, -, failed⟩ := refused meet
    obtain ⟨mount, same⟩ := reported _ failed
    cases same
  tfae_finish

theorem build_tfae_shops : ∃ outer inner : EmittedModule,
    outer.IsStubOf (Definition.template "shop" "reviews" "tags" "audits") ∧
    inner.IsStubOf (Definition.template "shop-reviews" "votes" "flags" "authors") ∧
    (∀ emitted ∈ [outer, inner], emitted.IsCompiled) ∧ PlacesApart [outer, inner] ∧
    [PlacesApart [outer, inner],
      ∀ fault, build [outer, inner] none = .error fault → ∃ mount, fault = .duplicateMount mount,
      BuildsSafely [outer, inner] none].TFAE ∧
    (¬PlacesApart [outer, inner] →
      ∃ entry ∈ (EmittedModule.beforeRepeat [] [outer, inner]).flatMap EmittedModule.entries,
        List.Duplicate entry.place
            (((EmittedModule.beforeRepeat [] [outer, inner]).flatMap EmittedModule.entries).map
              Entry.place) ∧
          build [outer, inner] none = .error (.overlappingMethod entry.path entry.method)) := by
  obtain ⟨outer, outerStub, outerMount⟩ := EmittedModule.exists_isStubOf
    (Definition.template "shop" "reviews" "tags" "audits")
    (fun mount _ => mount == "/api/shop") (by decide +kernel)
  obtain ⟨inner, innerStub, innerMount⟩ := EmittedModule.exists_isStubOf
    (Definition.template "shop-reviews" "votes" "flags" "authors")
    (fun mount _ => mount == "/api/shop-reviews") (by decide +kernel)
  have compiled : ∀ emitted ∈ [outer, inner], emitted.IsCompiled :=
    List.forall_mem_cons.mpr
      ⟨outerStub.isCompiled, List.forall_mem_singleton.mpr innerStub.isCompiled⟩
  -- One mount starts with the other, but not with the other and a slash.
  have unnested : ∀ mount ∈ [outer, inner].map EmittedModule.mount,
      ∀ other ∈ [outer, inner].map EmittedModule.mount, ¬IsBelow mount other := by
    rw [List.map_cons, List.map_singleton, beq_iff_eq.mp outerMount, beq_iff_eq.mp innerMount]
    decide
  have apart : PlacesApart [outer, inner] :=
    placesApart_of_unnested (fun emitted member => (compiled emitted member).isMountable)
      fun emitted member other otherMember =>
        unnested _ (List.mem_map_of_mem member) _ (List.mem_map_of_mem otherMember)
  exact ⟨outer, inner, outerStub, innerStub, compiled, apart, build_tfae compiled none⟩

/-! ## A module below a resource of another one -/

/-- A shop whose resource `reviews` has an action of its own for all of them. -/
def shop (action : String) : Definition :=
  (Definition.template "shop" "reviews" "tags" "audits").withActions .primaryResource
    (Definition.templateVerbs ++ [.onItem .delete "delete", .plain .get action])

/-- A module that is mounted where the shop serves its resource `reviews`. -/
def reviews : Definition :=
  { Definition.template "reviews" "votes" "flags" "authors" with mount := some "/api/shop/reviews" }

/-- Where the shop calls its action `analytics`, it serves the path that the module below it serves
its analytics on. The mounts differ, and still no router can be built. -/
theorem build_refuses_analytics : ∃ outer inner : EmittedModule,
    outer.IsStubOf (shop "analytics") ∧ inner.IsStubOf reviews ∧
    (∀ emitted ∈ [outer, inner], emitted.IsCompiled) ∧
    ([outer, inner].map EmittedModule.mount).Nodup ∧
      ∃ path method, build [outer, inner] none = .error (.overlappingMethod path method) := by
  obtain ⟨outer, outerStub, outerServes⟩ := EmittedModule.exists_isStubOf (shop "analytics")
    (fun mount places => mount == "/api/shop" &&
      places.contains ("/api/shop/reviews/analytics", .get)) (by decide +kernel)
  obtain ⟨inner, innerStub, innerServes⟩ := EmittedModule.exists_isStubOf reviews
    (fun mount places => mount == "/api/shop/reviews" &&
      places.contains ("/api/shop/reviews/analytics", .get)) (by decide +kernel)
  rw [Bool.and_eq_true, beq_iff_eq, List.contains_iff_mem] at outerServes innerServes
  have compiled : ∀ emitted ∈ [outer, inner], emitted.IsCompiled :=
    List.forall_mem_cons.mpr
      ⟨outerStub.isCompiled, List.forall_mem_singleton.mpr innerStub.isCompiled⟩
  have different : ([outer, inner].map EmittedModule.mount).Nodup := by
    rw [List.map_cons, List.map_singleton, outerServes.1, innerServes.1]
    decide
  have meet : ¬PlacesApart [outer, inner] := by
    intro apart
    rw [PlacesApart, EmittedModule.beforeRepeat_of_nodup_mounts different, List.map_flatMap,
      List.nodup_flatMap] at apart
    exact (List.pairwise_pair.mp apart.2) outerServes.2 innerServes.2
  obtain ⟨entry, -, -, refused⟩ := build_eq_error_of_not_placesApart
    (fun emitted member => (compiled emitted member).isMountable) meet none
  exact ⟨outer, inner, outerStub, innerStub, compiled, different, entry.path, entry.method, refused⟩

end Router

end Http

end ModuleRoutes
