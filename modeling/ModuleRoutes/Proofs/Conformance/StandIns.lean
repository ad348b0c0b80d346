import ModuleRoutes.Proofs.Compiler.HandlerKeys
import ModuleRoutes.Proofs.Conformance.Account
import ModuleRoutes.Proofs.Registration.RoundTrip
import ModuleRoutes.Proofs.Route.Encoded

/-!
# Stand-ins conform

A route stands for a route of a table when it has its path, its method and its family, whatever its
module id and its response shape. Lists of such stand-ins, in any order, are read back from their
JSON and conform to the table (`ModuleRoutes.Conformance.conforms_of_standIns`): checking them
matches every route of the table in order and finds no drift.
-/

namespace ModuleRoutes

/-- A route with the path, the method and the family of another one, and a module id that can be
told apart in the text of its key. -/
structure Route.StandsFor (route expected : Route) : Prop where
  path : route.path = expected.path
  method : route.method = expected.method
  family : route.handlerKey.family = expected.handlerKey.family
  moduleId : HandlerKey.IsPart route.handlerKey.moduleId

/-- A route with its key in another module. -/
def Route.inModule (moduleId : String) (route : Route) : Route :=
  { route with handlerKey := { route.handlerKey with moduleId := moduleId } }

namespace Route.StandsFor

variable {route expected : Route}

/-- The parts of a key besides its module id are those of its family. -/
theorem isWellFormed (standsFor : route.StandsFor expected)
    (wellFormed : expected.handlerKey.IsWellFormed) : route.handlerKey.IsWellFormed := by
  obtain ⟨kind, resource, action⟩ := Family.mk.injEq .. ▸ standsFor.family
  exact
    { moduleId := standsFor.moduleId
      action := action ▸ wellFormed.action
      resource := resource ▸ wellFormed.resource
      noun := by rw [resource, kind, wellFormed.noun] }

theorem shapeless_iff : route.shapeless.StandsFor expected ↔ route.StandsFor expected :=
  ⟨fun standsFor => ⟨standsFor.path, standsFor.method, standsFor.family, standsFor.moduleId⟩,
    fun standsFor => ⟨standsFor.path, standsFor.method, standsFor.family, standsFor.moduleId⟩⟩

theorem of_isPart {moduleId : String} (isPart : HandlerKey.IsPart moduleId) (route : Route) :
    (route.inModule moduleId).StandsFor route :=
  ⟨rfl, rfl, rfl, isPart⟩

end Route.StandsFor

namespace Conformance

variable {table : RouteTable} {observed : List Route}

/-! ## Clean reports -/

/-- A clean report matches the routes of the table in their order. -/
theorem matched_of_isClean (clean : (check table observed).isClean = true) :
    (check table observed).matched =
      table.routes.map fun route => expectedFinding route (.matched route.path) := by
  have unpaired := (isClean_iff.mp clean).1
  have order := (exactPairing_exhausts table observed).expected
  rw [unpaired, List.append_nil] at order
  have paired : (exactPairing table observed).pairs.map Prod.fst = table.routes :=
    (pairUp_pairs_sublist sameRoute table.routes _).eq_of_length order.length_eq
  rw [← paired, List.map_map]
  rfl

/-- Clean reports against one table are all the same. -/
theorem check_eq_of_isClean {other : List Route} (clean : (check table observed).isClean = true)
    (otherClean : (check table other).isClean = true) :
    check table observed = check table other := by
  have matched := (matched_of_isClean clean).trans (matched_of_isClean otherClean).symm
  have drift := List.isEmpty_iff.mp clean
  have otherDrift := List.isEmpty_iff.mp otherClean
  exact congrArg₂ (Report.mk table.moduleId) matched (drift.trans otherDrift.symm)

/-- A family of the table is compared as it is. -/
theorem observedKey_of_family {route expected : Route} (member : expected ∈ table.routes)
    (path : route.path = expected.path) (method : route.method = expected.method)
    (family : route.handlerKey.family = expected.handlerKey.family) :
    observedKey table route = expectedKey expected := by
  have inTable : route.handlerKey.family ∈ table.handlerKeys.map HandlerKey.family :=
    family ▸ List.mem_map_of_mem (List.mem_map_of_mem member)
  rw [observedKey, comparableFamily, if_pos (Or.inr inTable), path, method, family]
  rfl

theorem isClean_of_standIns {arranged : List Route} (arrangement : arranged.Perm table.routes)
    (standIns : List.Forall₂ Route.StandsFor observed arranged) :
    (check table observed).isClean = true := by
  rw [isClean_iff_perm]
  have compared : observed.map (observedKey table) = arranged.map expectedKey :=
    Places.map_eq_map_of_forall₂ standIns fun _ _ member standsFor =>
      observedKey_of_family (arrangement.mem_iff.mp member) standsFor.path standsFor.method
        standsFor.family
  rw [compared]
  exact (arrangement.map expectedKey).symm

/-! ## Artifacts -/

/-- A list of routes that is read back from its JSON, key by key and as a whole, and that conforms
to a table: every route of the table is matched, in the order of the table, and nothing drifts. -/
structure Conforms (table : RouteTable) (observed : List Route) : Prop where
  keys : ∀ route ∈ observed, HandlerKey.parse route.handlerKey.text = .ok route.handlerKey
  compact : Route.listOfJsonText (Route.listJson observed).compact = .ok observed
  pretty : Route.listOfJsonText (Route.listJson observed).pretty = .ok observed
  clean : (check table observed).isClean = true
  matched : (check table observed).matched =
    table.routes.map fun route => expectedFinding route (.matched route.path)
  count : (check table observed).matched.length = 28

theorem conforms_of_compile {compiler : Compiler} {definition : Definition}
    (compiled : compiler.compile definition = .ok table) {arranged : List Route}
    (arrangement : arranged.Perm table.routes)
    (standIns : List.Forall₂ Route.StandsFor observed arranged) : Conforms table observed := by
  have wellFormed : ∀ route ∈ observed, route.handlerKey.IsWellFormed := by
    intro route member
    obtain ⟨expected, inArranged, standsFor⟩ :=
      Places.exists_of_mem_forall₂ standIns.flip member
    exact standsFor.isWellFormed
      (Compiler.wellFormed_of_compile compiled expected (arrangement.mem_iff.mp inArranged))
  have clean := isClean_of_standIns arrangement standIns
  have matched := matched_of_isClean clean
  exact
    { keys := fun route member => HandlerKey.parse_text (wellFormed route member)
      compact := Route.listOfJsonText_write wellFormed false
      pretty := Route.listOfJsonText_write wellFormed true
      clean := clean
      matched := matched
      count := by
        rw [matched, List.length_map, Compiler.length_routes_of_compile compiled]
        rfl }

/-- **Artifacts.** For every compiled table, stand-ins for its routes in any order are read back
from their JSON and conform to the table, and so does every list that differs from them in response
shapes only, with the same report. -/
theorem conforms_of_standIns {compiler : Compiler} {definition : Definition}
    (compiled : compiler.compile definition = .ok table) {arranged : List Route}
    (arrangement : arranged.Perm table.routes)
    (standIns : List.Forall₂ Route.StandsFor observed arranged) :
    Conforms table observed ∧
      ∀ reshaped : List Route, reshaped.map Route.shapeless = observed.map Route.shapeless →
        Conforms table reshaped ∧ check table reshaped = check table observed := by
  have conforms := conforms_of_compile compiled arrangement standIns
  refine ⟨conforms, fun reshaped same => ?_⟩
  have stillStandIns : List.Forall₂ Route.StandsFor reshaped arranged := by
    have shapeless : ∀ routes : List Route,
        List.Forall₂ Route.StandsFor (routes.map Route.shapeless) arranged ↔
          List.Forall₂ Route.StandsFor routes arranged := by
      intro routes
      simp only [List.forall₂_map_left_iff, Route.StandsFor.shapeless_iff]
    rwa [← shapeless, same, shapeless]
  have reshapedConforms := conforms_of_compile compiled arrangement stillStandIns
  exact ⟨reshapedConforms, check_eq_of_isClean reshapedConforms.clean conforms.clean⟩

theorem conforms_reverse : ∃ table,
    Compiler.default.compile (Definition.template "m" "listings" "tags" "audits") = .ok table ∧
    table.routes.reverse.Perm table.routes ∧
    List.Forall₂ Route.StandsFor (table.routes.reverse.map (Route.inModule "\t\"n\" \\ é"))
      table.routes.reverse ∧
    Conforms table (table.routes.reverse.map (Route.inModule "\t\"n\" \\ é")) ∧
      ∀ reshaped : List Route, reshaped.map Route.shapeless =
          (table.routes.reverse.map (Route.inModule "\t\"n\" \\ é")).map Route.shapeless →
        Conforms table reshaped ∧ check table reshaped =
          check table (table.routes.reverse.map (Route.inModule "\t\"n\" \\ é")) := by
  obtain ⟨table, compiled⟩ := Outcome.exists_eq_ok (by decide +kernel :
    (Compiler.default.compile (Definition.template "m" "listings" "tags" "audits")).isOk = true)
  have arrangement := table.routes.reverse_perm
  have standIns : List.Forall₂ Route.StandsFor
      (table.routes.reverse.map (Route.inModule "\t\"n\" \\ é")) table.routes.reverse := by
    rw [List.forall₂_map_left_iff]
    exact List.forall₂_same.mpr fun route _ => .of_isPart ⟨by decide, by decide⟩ route
  exact ⟨table, compiled, arrangement, standIns,
    conforms_of_standIns compiled arrangement standIns⟩

end Conformance

end ModuleRoutes
