import ModuleRoutes.Proofs.Conformance.Hints
import ModuleRoutes.Proofs.Conformance.StandIns

/-!
# Aliases in observed routes

An observed route of a resource may name its action by an alias of the verb. It is compared as the
verb if its path has a parameter exactly when the verb addresses an item. So the routes of a
compiled table conform to it under such names exactly when the verbs among them that address an item
do so by a path parameter (`ModuleRoutes.Conformance.aliases_tfae_of_compile`). In a resource whose
paths leave the item out, an alias of `detail` is drift
(`ModuleRoutes.Conformance.drift_of_queryless_alias`).
-/

namespace ModuleRoutes

namespace Verb

variable {name : String} {verb : Verb}

theorem lookup_aliases (member : (name, verb) ∈ aliases) : aliases.lookup name = some verb := by
  have each : ∀ pair ∈ aliases, aliases.lookup pair.1 = some pair.2 := by decide
  exact each _ member

theorem isToken_alias (member : (name, verb) ∈ aliases) : Name.IsToken name := by
  have each : ∀ pair ∈ aliases, Name.IsToken pair.1 := by decide
  exact each _ member

/-- An alias stands for its verb where the route has the method and the addressing of the verb. -/
theorem canonicalActionFor_alias (member : (name, verb) ∈ aliases) (method : Method)
    (needsId : Bool) :
    canonicalActionFor name method needsId =
      if verb.fits method needsId then verb.text else name := by
  rw [canonicalActionFor, lookup_aliases member]

end Verb

/-- A route with another action in its key. -/
def Route.withAction (route : Route) (action : String) : Route :=
  { route with handlerKey := { route.handlerKey with action := action } }

/-- A route under another name for its action, if there is one. -/
def Route.renamed (names : Route → Option String) (route : Route) : Route :=
  (names route).elim route route.withAction

namespace Conformance

/-- A name that is an alias of the verb that a route of a resource is named by, and that no key of
the table has for its action in this resource. -/
structure IsAlias (table : RouteTable) (route : Route) (name : String) (verb : Verb) : Prop where
  listed : (name, verb) ∈ Verb.aliases
  resource : route.handlerKey.kind = .resource
  action : route.handlerKey.action = verb.text
  unused : ∀ key ∈ table.handlerKeys, key.resource = route.handlerKey.resource → key.action ≠ name

instance (table : RouteTable) (route : Route) (name : String) (verb : Verb) :
    Decidable (IsAlias table route name verb) :=
  decidable_of_iff ((name, verb) ∈ Verb.aliases ∧ route.handlerKey.kind = .resource ∧
      route.handlerKey.action = verb.text ∧
      ∀ key ∈ table.handlerKeys, key.resource = route.handlerKey.resource → key.action ≠ name)
    ⟨fun ⟨listed, resource, action, unused⟩ => ⟨listed, resource, action, unused⟩,
      fun ⟨listed, resource, action, unused⟩ => ⟨listed, resource, action, unused⟩⟩

/-- Names for some routes of a table, all of them aliases that the table has no key for. -/
def AreAliases (table : RouteTable) (names : Route → Option String) : Prop :=
  ∀ route ∈ table.routes, ∀ name ∈ names route, ∃ verb ∈ Verb.all, IsAlias table route name verb

instance (table : RouteTable) (names : Route → Option String) :
    Decidable (AreAliases table names) :=
  inferInstanceAs (Decidable (∀ _ ∈ _, ∀ _ ∈ _, ∃ _ ∈ _, _))

variable {table : RouteTable} {names : Route → Option String} {route : Route} {name : String}
  {verb : Verb}

/-! ## Addressing -/

/-- A route of a compiled table that is named by a verb has the method of the verb, and only where
the verb addresses an item has its path one. -/
theorem shape_of_verb {compiler : Compiler} {definition : Definition}
    (compiled : compiler.compile definition = .ok table) (member : route ∈ table.routes)
    (resource : route.handlerKey.kind = .resource) (named : route.handlerKey.action = verb.text) :
    route.method = verb.method ∧
      (pathSegments route.path).any isParameter = decide (":id" ∈ Text.segments '/' route.path) ∧
      (":id" ∈ Text.segments '/' route.path → verb.needsId = true) := by
  obtain ⟨normal, normalized, filled, keeps, -, rfl⟩ := Compiler.compile_eq_ok_iff.mp compiled
  obtain ⟨-, tokens⟩ := Definition.tokens_of_normalize normalized
  obtain ⟨part, inSections, action, inActions, laid⟩ :=
    Definition.exists_routeOf_of_mem_layout tokens filled keeps member
  rw [laid.handlerKey] at resource named
  have rule := (keeps part inSections).kindRule
  rw [Section.KindRule, show part.kind.kind = .resource from resource] at rule
  obtain ⟨method, needsId⟩ := rule action inActions verb named
  exact ⟨laid.method.trans method, any_isParameter_eq laid.path.isRoutePath.tokens,
    fun item => needsId.symm.trans (laid.path.item_mem_segments_iff.mp item).2.2⟩

/-! ## Comparing under other names -/

/-- A route under an alias is compared as the verb if it has the method and the addressing of the
verb, and else under the alias. -/
theorem comparableFamily_alias (isAlias : IsAlias table route name verb) :
    comparableFamily (table.handlerKeys.map HandlerKey.family) (route.withAction name) =
      ⟨.resource, route.handlerKey.resource,
        if verb.fits route.method ((pathSegments route.path).any isParameter) then verb.text
        else name⟩ := by
  have family : (route.withAction name).handlerKey.family =
      ⟨.resource, route.handlerKey.resource, name⟩ := by
    rw [← isAlias.resource]
    rfl
  have absent : (⟨.resource, route.handlerKey.resource, name⟩ : Family) ∉
      table.handlerKeys.map HandlerKey.family := by
    intro inTable
    obtain ⟨key, member, same⟩ := List.mem_map.mp inTable
    obtain ⟨-, resource, action⟩ := Family.mk.injEq .. ▸ same
    exact isAlias.unused key member resource action
  have isToken := Verb.isToken_alias isAlias.listed
  rw [comparableFamily, family]
  simp only [ne_eq, not_true_eq_false, absent, or_self, if_false,
    Name.normalize_eq_self_iff.mpr isToken, Verb.canonicalActionFor_alias isAlias.listed]
  rfl

variable {compiler : Compiler} {definition : Definition}

/-- A route under an alias is compared as the verb where its path has an item if the verb addresses
one. -/
theorem observedKey_alias (compiled : compiler.compile definition = .ok table)
    (member : route ∈ table.routes) (isAlias : IsAlias table route name verb)
    (addressed : verb.needsId = true → ":id" ∈ Text.segments '/' route.path) :
    observedKey table (route.withAction name) = expectedKey route := by
  obtain ⟨method, parameter, item⟩ := shape_of_verb compiled member isAlias.resource isAlias.action
  have fits : verb.fits route.method ((pathSegments route.path).any isParameter) = true := by
    rw [parameter, Verb.fits, method, decide_eq_true rfl, Bool.true_and, decide_eq_true_iff,
      Bool.eq_iff_iff, decide_eq_true_iff]
    exact ⟨addressed, item⟩
  rw [observedKey, comparableFamily_alias isAlias, if_pos fits, ← isAlias.action,
    ← isAlias.resource]
  rfl

/-- A route under an alias is compared under the alias where the verb addresses an item and its path
has none. -/
theorem comparableFamily_alias_of_itemless (compiled : compiler.compile definition = .ok table)
    (member : route ∈ table.routes) (isAlias : IsAlias table route name verb)
    (needsId : verb.needsId = true) (itemless : ":id" ∉ Text.segments '/' route.path) :
    comparableFamily (table.handlerKeys.map HandlerKey.family) (route.withAction name) =
      ⟨.resource, route.handlerKey.resource, name⟩ := by
  obtain ⟨-, parameter, -⟩ := shape_of_verb compiled member isAlias.resource isAlias.action
  have misfits : ¬verb.fits route.method ((pathSegments route.path).any isParameter) = true := by
    rw [parameter, decide_eq_false itemless, Verb.fits, needsId]
    simp
  rw [comparableFamily_alias isAlias, if_neg misfits]

/-! ## Reports -/

theorem observedKey_renamed (compiled : compiler.compile definition = .ok table)
    (aliases : AreAliases table names)
    (addressed : ∀ route ∈ table.routes, ∀ name ∈ names route, ∀ verb,
      IsAlias table route name verb → verb.needsId = true → ":id" ∈ Text.segments '/' route.path)
    (member : route ∈ table.routes) :
    observedKey table (route.renamed names) = expectedKey route := by
  rw [Route.renamed]
  cases named : names route with
  | none => exact observedKey_of_family member rfl rfl rfl
  | some name =>
      obtain ⟨verb, -, isAlias⟩ := aliases route member name named
      exact observedKey_alias compiled member isAlias
        (addressed route member name named verb isAlias)

/-- A report on as many routes as the table has is clean when it matches all of them. -/
theorem isClean_of_length_matched {observed : List Route}
    (count : observed.length = table.routes.length)
    (matched : (check table observed).matched.length = table.routes.length) :
    (check table observed).isClean = true := by
  have exhausts := exactPairing_exhausts table observed
  have pairs : (exactPairing table observed).pairs.length = table.routes.length := by
    rw [← matched, check_eq]
    exact (List.length_map _).symm
  have inTable := exhausts.expected.length_eq
  have inObserved := exhausts.observed.length_eq
  rw [observations, List.length_map] at inObserved
  rw [List.length_append, List.length_map] at inTable inObserved
  rw [isClean_iff]
  constructor <;> rw [← List.length_eq_zero_iff] <;> omega

/-- **Aliases.** For a compiled table and its routes under names that are aliases of their verbs and
that the table has no key for, the following are the same: each route under an alias of a verb that
addresses an item has one in its path; the routes conform to the table; and all 28 are matched. -/
theorem aliases_tfae_of_compile (compiled : compiler.compile definition = .ok table)
    (aliases : AreAliases table names) :
    [∀ route ∈ table.routes, ∀ name ∈ names route, ∀ verb, IsAlias table route name verb →
        verb.needsId = true → ":id" ∈ Text.segments '/' route.path,
      (check table (table.routes.map (Route.renamed names))).isClean = true,
      (check table (table.routes.map (Route.renamed names))).matched.length = 28].TFAE := by
  have total := Compiler.length_routes_of_compile compiled
  tfae_have 1 → 2 := by
    intro addressed
    rw [isClean_iff_perm, List.map_map]
    refine .of_eq (List.map_congr_left fun route member => ?_).symm
    exact observedKey_renamed compiled aliases addressed member
  tfae_have 2 → 1 := by
    intro clean route member name named verb isAlias needsId
    by_contra itemless
    have family := comparableFamily_alias_of_itemless compiled member isAlias needsId itemless
    have observed : observedKey table (route.withAction name) ∈
        (table.routes.map (Route.renamed names)).map (observedKey table) := by
      refine List.mem_map_of_mem (List.mem_map.mpr ⟨route, member, ?_⟩)
      rw [Route.renamed, Option.mem_def.mp named, Option.elim_some]
    -- Some route of the table would have the alias for its action, but the table has no such key.
    obtain ⟨other, inTable, same⟩ :=
      List.mem_map.mp ((isClean_iff_perm.mp clean).mem_iff.mpr observed)
    have sameFamily : other.handlerKey.family = ⟨.resource, route.handlerKey.resource, name⟩ :=
      (congrArg (fun key => key.2.2) same).trans family
    obtain ⟨-, resource, action⟩ := Family.mk.injEq .. ▸ sameFamily
    exact isAlias.unused other.handlerKey (List.mem_map_of_mem inTable) resource action
  tfae_have 2 → 3 := by
    intro clean
    rw [matched_of_isClean clean, List.length_map, total]
    rfl
  tfae_have 3 → 2 := by
    intro matched
    exact isClean_of_length_matched (List.length_map _) (matched.trans total.symm)
  tfae_finish

/-- The name `show` for every detail of a resource. -/
def showDetails (route : Route) : Option String :=
  if route.handlerKey.action = "detail" then some "show" else none

theorem aliases_tfae_listings : ∃ table,
    Compiler.default.compile (Definition.template "m" "listings" "tags" "audits") = .ok table ∧
    AreAliases table showDetails ∧
    [∀ route ∈ table.routes, ∀ name ∈ showDetails route, ∀ verb, IsAlias table route name verb →
        verb.needsId = true → ":id" ∈ Text.segments '/' route.path,
      (check table (table.routes.map (Route.renamed showDetails))).isClean = true,
      (check table (table.routes.map (Route.renamed showDetails))).matched.length = 28].TFAE := by
  obtain ⟨table, compiled, aliases⟩ := Outcome.exists_of_any_toOption (by decide +kernel :
    ((Compiler.default.compile (Definition.template "m" "listings" "tags" "audits")).toOption.any
      fun table => decide (AreAliases table showDetails)) = true)
  rw [decide_eq_true_iff] at aliases
  exact ⟨table, compiled, aliases, aliases_tfae_of_compile compiled aliases⟩

/-- A definition whose primary resource leaves items out of its paths. -/
def queryless : Definition :=
  { Definition.template "m" "listings" "tags" "audits" with
    sections := (Definition.template "m" "listings" "tags" "audits").sections.map fun part =>
      if part.kind = .primaryResource then { part with idStyle := .queryless } else part }

/-- The details of the definition are served on a path without an item, so that under the alias they
are one missing and one extra route. -/
theorem drift_of_queryless_alias : ∃ table, Compiler.default.compile queryless = .ok table ∧
    AreAliases table showDetails ∧
    (check table (table.routes.map (Route.renamed showDetails))).isClean = false ∧
    (check table (table.routes.map (Route.renamed showDetails))).matched.length = 27 := by
  obtain ⟨table, compiled, checked⟩ := Outcome.exists_of_any_toOption (by decide +kernel :
    ((Compiler.default.compile queryless).toOption.any fun table =>
      decide (AreAliases table showDetails) &&
        (check table (table.routes.map (Route.renamed showDetails))).matched.length = 27) = true)
  simp only [Bool.and_eq_true, decide_eq_true_eq] at checked
  obtain ⟨aliases, matched⟩ := checked
  refine ⟨table, compiled, aliases, Bool.eq_false_iff.mpr fun clean => ?_, matched⟩
  rw [matched_of_isClean clean, List.length_map, Compiler.length_routes_of_compile compiled]
    at matched
  exact absurd matched (by decide)

end Conformance

end ModuleRoutes
