import ModuleRoutes.Proofs.Http.Build
import ModuleRoutes.Proofs.Http.Calls

/-!
# Where requests go

A request to a route of a compiled module, with a value in the place of the item, goes to the
handler of the route and to no other, and hands it the value as `id`
(`ModuleRoutes.Http.Router.dispatches_of_compile`). The value may be any text without reserved
characters that no route of the module has for its second segment after the same first one.
-/

namespace ModuleRoutes

open Http

/-! ## Paths with values -/

/-- A path with a value in the places of its items. -/
def filledPath (value path : String) : String :=
  Text.joined "/" ((Text.pieces '/' path).map (filledSegment value))

theorem filledPath_eq {value path : String} (modulePath : IsModulePath path) :
    filledPath value path =
      "/" ++ Text.joined "/" (filledSegments value (Text.segments '/' path)) := by
  obtain ⟨parts, rfl, nonempty, tokens, -⟩ := modulePath
  have lists := splitOn_path nonempty fun part member => slash_not_mem_segment (tokens part member)
  have pieces : Text.pieces '/' ("/" ++ Text.joined "/" parts) = "" :: parts := by
    have restored : parts.map (String.ofList ∘ String.toList) = parts :=
      (List.map_congr_left fun _ _ => String.ofList_toList).trans (List.map_id parts)
    rw [Text.pieces, lists, List.map_cons, List.map_map, restored]
  obtain ⟨first, others, rfl⟩ := List.exists_cons_of_ne_nil nonempty
  rw [segments_of_tokens nonempty tokens, filledPath, pieces]
  apply String.toList_injective
  rw [String.toList_append, Text.toList_joined, Text.toList_joined]
  rfl

/-- A path below a mount with a value in the place of its item is its segments with the value. -/
theorem toList_filledPath {mount path : String} (mounted : IsMountPath mount)
    (modulePath : IsModulePath path) (value : String) :
    (mount ++ filledPath value path).toList =
      pathOf ((filledSegments value (Text.segments '/' (mount ++ path))).map String.toList) := by
  obtain ⟨mountSpelled, mountNonempty, -⟩ := mounted.isModulePath.spelled
  obtain ⟨-, nonempty, -⟩ := modulePath.spelled
  have kept := filledSegments_eq_self value mounted.item_not_mem_segments
  have filled : filledSegments value (Text.segments '/' (mount ++ path)) =
      Text.segments '/' mount ++ filledSegments value (Text.segments '/' path) := by
    rw [mounted.isModulePath.segments_append modulePath, filledSegments, List.map_append]
    exact congrArg (· ++ _) kept
  have occupied : filledSegments value (Text.segments '/' path) ≠ [] := by
    rwa [filledSegments, ne_eq, List.map_eq_nil_iff]
  rw [filled, filledPath_eq modulePath, pathOf, List.flatMap_map]
  conv_lhs => rw [mountSpelled]
  rw [Text.path_append mountNonempty occupied,
    Text.toList_path (List.append_ne_nil_of_left_ne_nil mountNonempty _)]

/-! ## Values for items -/

namespace RouteTable

/-- A text that can stand for the item in the path of a route: it has no reserved characters, and no
route of the table has it for a second segment after the same first one. -/
structure IsValueFor (table : RouteTable) (route : Route) (value : String) : Prop where
  nonempty : value ≠ ""
  unreserved : ∀ c ∈ value.toList, isUnreserved c = true
  fresh : ∀ other ∈ table.routes,
    (Text.segments '/' other.path)[0]? = (Text.segments '/' route.path)[0]? →
      (Text.segments '/' other.path)[1]? ≠ some value

/-- A text that can stand for the item in the path of a route where any character but a slash may
be written. -/
structure IsFreshFor (table : RouteTable) (route : Route) (value : String) : Prop where
  nonempty : value ≠ ""
  noSlash : '/' ∉ value.toList
  fresh : ∀ other ∈ table.routes,
    (Text.segments '/' other.path)[0]? = (Text.segments '/' route.path)[0]? →
      (Text.segments '/' other.path)[1]? ≠ some value

variable {table : RouteTable} {route other : Route} {value : String}

theorem IsValueFor.isFreshFor (isValue : table.IsValueFor route value) :
    table.IsFreshFor route value where
  nonempty := isValue.nonempty
  noSlash := fun slash => (isPlainChar_of_isUnreserved (isValue.unreserved _ slash)).noSlash rfl
  fresh := isValue.fresh

theorem isUnreserved_of_mem_token {token : String} (isToken : Name.IsToken token) {c : Char}
    (member : c ∈ token.toList) : isUnreserved c = true := by
  rcases isToken.mem_toList member with rfl | letter
  · decide
  · rw [Name.isTokenChar, Bool.or_eq_true] at letter
    have alphanumeric : c.isAlphanum = true := by
      rcases letter with lower | digit
      · exact (Bool.or_eq_true _ _).mpr (.inl ((Bool.or_eq_true _ _).mpr (.inr lower)))
      · exact (Bool.or_eq_true _ _).mpr (.inr digit)
    simp [isUnreserved, alphanumeric]

/-- What holds of a value and of every token holds of the segments of a route's path with the value
in the place of the item. -/
theorem IsServable.forall_mem_filledSegments (servable : table.IsServable)
    (member : route ∈ table.routes) {P : List Char → Prop} (ofValue : P value.toList)
    (ofToken : ∀ token, Name.IsToken token → P token.toList) :
    ∀ segment ∈ (filledSegments value (Text.segments '/' (table.mount ++ route.path))).map
      String.toList, P segment := by
  obtain ⟨-, -, tokens, -⟩ := (servable.isModulePath_append member).spelled
  simp only [filledSegments, List.map_map, List.forall_mem_map, Function.comp_apply]
  intro part inParts
  rw [filledSegment]
  by_cases item : part = ":id"
  · rw [if_pos item]
    exact ofValue
  · rw [if_neg item]
    exact ofToken part (tokens part inParts item)

/-- The segments of a route's path with a value in the place of the item hold no reserved
characters. -/
theorem IsServable.unreserved_filledSegments (servable : table.IsServable)
    (member : route ∈ table.routes) (isValue : table.IsValueFor route value) :
    ∀ segment ∈ (filledSegments value (Text.segments '/' (table.mount ++ route.path))).map
      String.toList, segment ≠ [] ∧ ∀ c ∈ segment, isUnreserved c = true := by
  refine servable.forall_mem_filledSegments member ?_ fun token isToken => ?_
  · rw [ne_eq, String.toList_eq_nil_iff]
    exact ⟨isValue.nonempty, isValue.unreserved⟩
  · exact ⟨isToken.toList_ne_nil, fun c => isUnreserved_of_mem_token isToken⟩

/-- The segments of a route's path with a value in the place of the item are segments. -/
theorem IsServable.clean_filledSegments (servable : table.IsServable)
    (member : route ∈ table.routes) (isFresh : table.IsFreshFor route value) :
    ∀ segment ∈ (filledSegments value (Text.segments '/' (table.mount ++ route.path))).map
      String.toList, segment ≠ [] ∧ '/' ∉ segment := by
  refine servable.forall_mem_filledSegments member ?_ fun token isToken => ?_
  · rw [ne_eq, String.toList_eq_nil_iff]
    exact ⟨isFresh.nonempty, isFresh.noSlash⟩
  · exact ⟨isToken.toList_ne_nil, isToken.slash_not_mem⟩

/-- A path with a value that may stand there fills the segments of another route only if these are
the same, or if they have an item and the route has none. -/
theorem IsServable.eq_or_plain_of_fills (servable : table.IsServable)
    (member : route ∈ table.routes) (otherMember : other ∈ table.routes)
    (isFresh : table.IsFreshFor route value) {values : List (List Char × List Char)}
    (fills : Fills (Text.segments '/' (table.mount ++ other.path))
      ((filledSegments value (Text.segments '/' (table.mount ++ route.path))).map String.toList)
      values) :
    Text.segments '/' (table.mount ++ other.path) = Text.segments '/' (table.mount ++ route.path) ∨
      (":id" ∉ Text.segments '/' (table.mount ++ route.path) ∧
        ":id" ∈ Text.segments '/' (table.mount ++ other.path)) := by
  have mounted := servable.mount.isModulePath
  have noItem := servable.mount.item_not_mem_segments
  have routePath := servable.paths route member
  have otherPath := servable.paths other otherMember
  rw [mounted.segments_append routePath.isModulePath,
    mounted.segments_append otherPath.isModulePath] at fills ⊢
  have kept := filledSegments_eq_self value noItem
  rw [filledSegments] at kept
  rw [filledSegments, List.map_append, kept, List.map_append,
    fills_append_iff fun part inMount item => noItem (item ▸ inMount)] at fills
  rw [List.append_cancel_left_eq, List.mem_append, List.mem_append, or_iff_right noItem,
    or_iff_right noItem]
  exact Http.eq_or_plain_of_fills routePath.second otherPath.second
    (isFresh.fresh other otherMember) fills

end RouteTable

namespace Http

/-! ## Routers of tables -/

/-- The segments of the path of the document. -/
def documentSegments : List String := ["openapi.json"]

/-- A router that serves the routes of a table by the handlers of a binding, and besides them at
most a document. -/
structure Router.Serves (router : Router) (table : RouteTable) (binding : Binding) : Prop where
  apart : (router.entries.map Entry.place).Nodup
  endpoints : ∀ endpoint ∈ router.endpoints, endpoint.IsOn documentSegments ∨
    ∃ route ∈ table.routes, endpoint.IsOn (Text.segments '/' (table.mount ++ route.path))
  routes : ∀ route ∈ table.routes, ∃ endpoint ∈ router.endpoints,
    endpoint.IsOn (Text.segments '/' (table.mount ++ route.path)) ∧
      endpoint.method = route.method ∧
      ∃ handler, binding.get? route.handlerKey = some handler ∧
        endpoint.service = .handler handler

variable {table : RouteTable} {binding : Binding} {emitted : EmittedModule} {router : Router}
  {route : Route} {endpoint : Endpoint} {value : String}

theorem Endpoint.isOn_documentSegments (stored : IsStored endpoint.path endpoint.pattern)
    (path : endpoint.path = Router.documentPath) : endpoint.IsOn documentSegments := by
  have read := stored.read
  rw [path, Router.isStored_documentPath.read] at read
  exact
    { path := path.trans (by decide)
      pattern := (Option.some.inj read).symm.trans (by decide)
      filled := by decide
      free := by decide }

/-- An endpoint on the path of a route is on the segments of the path. -/
theorem Endpoint.isOn_segments (stored : IsStored endpoint.path endpoint.pattern)
    (servable : table.IsServable) (member : route ∈ table.routes)
    (path : endpoint.path = table.mount ++ bracedPath route.path) :
    endpoint.IsOn (Text.segments '/' (table.mount ++ route.path)) := by
  obtain ⟨spelled, nonempty, tokens, single⟩ := (servable.isModulePath_append member).spelled
  have braced : endpoint.path = bracedPath
      ("/" ++ Text.joined "/" (Text.segments '/' (table.mount ++ route.path))) := by
    rw [← spelled, path,
      servable.mount.bracedPath_append (servable.paths route member).isModulePath]
  have read := stored.read
  rw [braced, ofPath?_bracedPath nonempty tokens single] at read
  exact
    { path := braced
      pattern := (Option.some.inj read).symm
      filled := by
        rintro part inParts rfl
        exact (tokens "" inParts (by decide)).toList_ne_nil rfl
      free := fun part inParts => slash_not_mem_segment (tokens part inParts) }

/-- The path of a route below its mount has more segments than the path of the document. -/
theorem not_fills_documentSegments (servable : table.IsServable) (member : route ∈ table.routes)
    {values : List (List Char × List Char)} :
    ¬Fills documentSegments
      ((filledSegments value (Text.segments '/' (table.mount ++ route.path))).map String.toList)
      values := by
  intro fills
  have modulePath := (servable.paths route member).isModulePath
  have mounted := List.length_pos_of_ne_nil servable.mount.isModulePath.spelled.2.1
  have occupied := List.length_pos_of_ne_nil modulePath.spelled.2.1
  have same := fills.length_eq
  rw [filledSegments, List.length_map, List.length_map,
    servable.mount.isModulePath.segments_append modulePath, List.length_append, documentSegments,
    List.length_singleton] at same
  omega

/-- A router with the entries of a module that is emitted from a table, and perhaps a document,
serves the table, in whatever order the entries are. -/
theorem Router.serves_of_perm {served : Option OpenApi.Document} (servable : table.IsServable)
    (emits : table.emit binding = .ok emitted) (sound : router.IsSound)
    (regrouped : router.entries.Perm (emitted.entries ++ documentEntries served))
    (apart : (router.entries.map Entry.place).Nodup) : router.Serves table binding := by
  obtain ⟨-, mount, pointwise⟩ := RouteTable.emits_of_emit emits
  refine ⟨apart, ?_, ?_⟩
  · intro endpoint member
    have stored := sound endpoint member
    have entered : endpoint.entry ∈ emitted.entries ++ documentEntries served :=
      regrouped.mem_iff.mp (List.mem_map_of_mem member)
    rcases List.mem_append.mp entered with inModule | inDocument
    · obtain ⟨emittedRoute, inRoutes, same⟩ := List.mem_map.mp inModule
      obtain ⟨route, inTable, emits⟩ := Places.exists_of_mem_forall₂ pointwise inRoutes
      refine .inr ⟨route, inTable, Endpoint.isOn_segments stored servable inTable ?_⟩
      rw [← mount, ← emits.path]
      exact (congrArg Entry.path same).symm
    · obtain ⟨document, -, same⟩ := List.mem_map.mp inDocument
      exact .inl (Endpoint.isOn_documentSegments stored (congrArg Entry.path same).symm)
  · intro route inTable
    obtain ⟨emittedRoute, inRoutes, emits⟩ := Places.exists_of_mem_forall₂ pointwise.flip inTable
    have entered : ⟨emitted.mount ++ bracedPath emittedRoute.path, emittedRoute.method,
        .handler emittedRoute.handler⟩ ∈ router.entries :=
      regrouped.mem_iff.mpr (List.mem_append_left _ (List.mem_map_of_mem inRoutes))
    obtain ⟨endpoint, member, same⟩ := List.mem_map.mp entered
    refine ⟨endpoint, member, Endpoint.isOn_segments (sound endpoint member) servable inTable ?_,
      (congrArg Entry.method same).trans emits.method, _, emits.handler,
      congrArg Entry.service same⟩
    rw [← mount, ← emits.path]
    exact congrArg Entry.path same

/-- A router of one module that is emitted from a table can be built, with a document or without. It
has the routes of the module, each once, and serves the table. -/
theorem Router.exists_serves (servable : table.IsServable)
    (emits : table.emit binding = .ok emitted) (served : Option OpenApi.Document) :
    ∃ router, build [emitted] served = .ok router ∧
      router.entries.Perm (emitted.entries ++ documentEntries served) ∧
      router.Serves table binding := by
  have mountable := List.forall_mem_singleton.mpr (servable.isMountable emits)
  have single : [emitted].flatMap EmittedModule.entries = emitted.entries :=
    List.flatMap_singleton _ _
  have places := single ▸ (servable.isMountable emits).nodup_places
  obtain ⟨router, built, sound, -, regrouped⟩ :=
    @exists_build_eq_ok [emitted] served mountable (List.nodup_singleton _) places
  have apart := (regrouped.map Entry.place).nodup_iff.mpr
    (@nodup_append_document [emitted] served mountable places)
  rw [single] at regrouped
  exact ⟨router, built, regrouped, serves_of_perm servable emits sound regrouped apart⟩

/-! ## Requests -/

/-- A request for a route of a table, with a value in the place of the item, without a query and a
body. -/
def bareRequest (table : RouteTable) (route : Route) (value : String)
    (contentType : Option (List UInt8)) : Request :=
  ⟨route.method.text, ⟨(table.mount ++ filledPath value route.path).toList, none⟩, contentType, []⟩

/-- The path of a route below its mount, with a value, is the target of a request line. -/
theorem parse?_bareRequest (servable : table.IsServable) (member : route ∈ table.routes)
    (isValue : table.IsValueFor route value) (contentType : Option (List UInt8))
    (short : (table.mount ++ filledPath value route.path).utf8ByteSize ≤ targetLimit) :
    Target.parse? (table.mount ++ filledPath value route.path) =
      some (bareRequest table route value contentType).target := by
  have modulePath := (servable.paths route member).isModulePath
  have text := toList_filledPath servable.mount modulePath value
  obtain ⟨-, nonempty, -⟩ := (servable.isModulePath_append member).spelled
  obtain ⟨first, others, segments⟩ := List.exists_cons_of_ne_nil nonempty
  refine Target.parse?_of_isPathChar (text.trans (by rw [segments]; rfl)) ?_ short
  rw [text]
  intro c inPath
  obtain ⟨segment, inSegments, inSegment⟩ := List.mem_flatMap.mp inPath
  rcases List.mem_cons.mp inSegment with rfl | inside
  · decide
  · have unreserved := servable.unreserved_filledSegments member isValue segment inSegments
    exact (isPlainChar_of_isUnreserved (unreserved.2 c inside)).isPathChar

/-- A request for a route, with a value in the place of the item, goes to the handler of the route.
-/
theorem Router.Serves.reaches (serves : router.Serves table binding)
    (servable : table.IsServable) (member : route ∈ table.routes)
    (isFresh : table.IsFreshFor route value) (query : Option (List Char))
    (contentType : Option (List UInt8)) (body : List UInt8) :
    ∃ handler, binding.get? route.handlerKey = some handler ∧
      router.Reaches ⟨route.method.text,
          ⟨(table.mount ++ filledPath value route.path).toList, query⟩, contentType, body⟩ handler
        (List.replicate ((Text.segments '/' (table.mount ++ route.path)).count ":id")
          (['i', 'd'], value.toList)) := by
  have modulePath := (servable.paths route member).isModulePath
  have clean := servable.clean_filledSegments member isFresh
  obtain ⟨endpoint, inRouter, isOn, method, handler, bound, service⟩ := serves.routes route member
  have selects : ∃ selected, router.select?
      (pathOf ((filledSegments value (Text.segments '/' (table.mount ++ route.path))).map
        String.toList)) = some selected ∧
      selected.IsOn (Text.segments '/' (table.mount ++ route.path)) := by
    refine select?_of_fills (fun other inOthers => ?_) ⟨endpoint, inRouter, isOn⟩ clean
    rcases serves.endpoints other inOthers with document | ⟨otherRoute, inTable, otherOn⟩
    · exact ⟨_, document, fun values fills =>
        absurd fills (not_fills_documentSegments servable member)⟩
    · exact ⟨_, otherOn, fun values => servable.eq_or_plain_of_fills member inTable isFresh⟩
  obtain ⟨selected, selects, selectedOn⟩ := selects
  have samePath : selected.path = endpoint.path := selectedOn.path.trans isOn.path.symm
  have found := endpointOn?_of_mem serves.apart inRouter
  rw [← samePath, method] at found
  have binds := (isOn.bind?_eq_some_iff clean).mpr (fills_filledSegments value _)
  rw [← toList_filledPath servable.mount modulePath value] at selects binds
  exact ⟨handler, bound, selected, endpoint, selects, found, service, binds⟩

theorem Router.Serves.call?_bareRequest (serves : router.Serves table binding)
    (servable : table.IsServable) (member : route ∈ table.routes)
    (isValue : table.IsValueFor route value) (contentType : Option (List UInt8)) :
    ∃ handler, binding.get? route.handlerKey = some handler ∧
      router.call? (bareRequest table route value contentType) =
        some (handler, bareObject (Text.segments '/' route.path) value) := by
  have modulePath := (servable.paths route member).isModulePath
  obtain ⟨-, -, -, single⟩ := (servable.isModulePath_append member).spelled
  have object : bareObject (Text.segments '/' route.path) value =
      bareObject (Text.segments '/' (table.mount ++ route.path)) value := by
    simp only [bareObject, servable.mount.isModulePath.segments_append modulePath, List.mem_append,
      servable.mount.item_not_mem_segments, false_or]
  obtain ⟨handler, bound, reaches⟩ :=
    serves.reaches servable member isValue.isFreshFor none contentType []
  rw [object]
  exact ⟨handler, bound, reaches.call?_bare rfl rfl single isValue.unreserved⟩

namespace Router

/-- **Dispatch.** Let all keys of a compiled table be bound. Then the module that is emitted from
the table is served by itself, with a document or without, and no route is lost when the routes are
grouped by path. A request for a route with a value in the place of the item, without a query and a
body, goes to the handler that the key of the route is bound to. The handler sees the value as `id`
where the path has an item, and nothing where it has none, and its answer is the response. -/
theorem dispatches_of_compile {definition : Definition}
    (compiled : Compiler.default.compile definition = .ok table)
    (bound : ∀ key ∈ table.handlerKeys, binding.contains key = true)
    (served : Option OpenApi.Document) :
    ∃ emitted router, table.emit binding = .ok emitted ∧ build [emitted] served = .ok router ∧
      router.entries.Perm (emitted.entries ++ documentEntries served) ∧
      ∀ route ∈ table.routes, ∀ value, table.IsValueFor route value → ∀ contentType,
        ((table.mount ++ filledPath value route.path).utf8ByteSize ≤ targetLimit →
          Target.parse? (table.mount ++ filledPath value route.path) =
            some (bareRequest table route value contentType).target) ∧
        ∃ handler, binding.get? route.handlerKey = some handler ∧
          router.call? (bareRequest table route value contentType) =
            some (handler, bareObject (Text.segments '/' route.path) value) ∧
          router.respond (bareRequest table route value contentType) =
            .ofAnswer (handler (bareObject (Text.segments '/' route.path) value)) := by
  have servable := RouteTable.isServable_of_compile compiled
  obtain ⟨emitted, emits⟩ :=
    RouteTable.exists_emit_eq_ok fun route member => bound _ (List.mem_map_of_mem member)
  obtain ⟨router, built, regrouped, serves⟩ := exists_serves servable emits served
  refine ⟨emitted, router, emits, built, regrouped, ?_⟩
  intro route member value isValue contentType
  obtain ⟨handler, found, called⟩ :=
    serves.call?_bareRequest servable member isValue contentType
  exact ⟨parse?_bareRequest servable member isValue contentType, handler, found, called,
    respond_of_call? called (Method.text_ne_head route.method)⟩

/-- The shop serves its latest reviews and each of its reviews on paths that one request can match.
-/
theorem dispatches_reviews : ∃ table emitted router,
    Compiler.default.compile (shop "latest") = .ok table ∧
    (∀ key ∈ table.handlerKeys, (Binding.stubsFor table).contains key = true) ∧
    table.emit (Binding.stubsFor table) = .ok emitted ∧ build [emitted] none = .ok router ∧
    ∃ route ∈ table.routes, route.path = "/reviews/:id" ∧ route.method = .get ∧
      table.IsValueFor route "later" ∧ ¬table.IsValueFor route "latest" ∧
      ∃ handler, (Binding.stubsFor table).get? route.handlerKey = some handler ∧
        router.call? ⟨"GET", ⟨"/api/shop/reviews/later".toList, none⟩, none, []⟩ =
          some (handler, .obj [("id", .str "later")]) := by
  obtain ⟨table, compiled, checked⟩ := Outcome.exists_of_any_toOption (by decide +kernel :
    ((Compiler.default.compile (shop "latest")).toOption.any fun table =>
      table.mount == "/api/shop" &&
        ((table.routes.any fun route => route.path == "/reviews/:id" && route.method == .get) &&
          ((table.routes.any fun other => other.path == "/reviews/latest") &&
            table.routes.all fun other =>
              (Text.segments '/' other.path)[1]? != some "later"))) = true)
  simp only [Bool.and_eq_true, List.any_eq_true, List.all_eq_true, beq_iff_eq, bne_iff_ne]
    at checked
  obtain ⟨mount, ⟨route, member, path, method⟩, ⟨latest, inTable, latestPath⟩, fresh⟩ := checked
  have bound : ∀ key ∈ table.handlerKeys, (Binding.stubsFor table).contains key = true :=
    fun key inKeys => Binding.isSome_get?_foldl_insert (.inr inKeys)
  have unreserved : "later".toList.all isUnreserved = true := by decide
  have isValue : table.IsValueFor route "later" :=
    ⟨by decide, List.all_eq_true.mp unreserved, fun other inOthers _ => fresh other inOthers⟩
  have taken : ¬table.IsValueFor route "latest" := by
    intro isValue
    refine isValue.fresh latest inTable ?_ ?_ <;> rw [latestPath]
    · rw [path]
      decide
    · decide
  obtain ⟨emitted, router, emits, built, -, dispatches⟩ :=
    dispatches_of_compile compiled bound none
  obtain ⟨-, handler, found, called, -⟩ := dispatches route member "later" isValue none
  have request : bareRequest table route "later" none =
      ⟨"GET", ⟨"/api/shop/reviews/later".toList, none⟩, none, []⟩ := by
    rw [bareRequest, mount, path, method]
    decide
  have object : bareObject (Text.segments '/' route.path) "later" =
      .obj [("id", .str "later")] := by
    rw [bareObject, path, if_pos (by decide)]
  rw [request, object] at called
  exact ⟨table, emitted, router, compiled, bound, emits, built, route, member, path, method,
    isValue, taken, handler, found, called⟩

end Router

end Http

end ModuleRoutes
