import ModuleRoutes.Conformance.Report
import ModuleRoutes.Name.Basic
import ModuleRoutes.Name.Verb

/-!
# Checking routes against a table

Observed routes are paired with the routes of a table: first those that agree in method, path and
family, then the rest by method and family alone. An expected route without partner is missing, an
observed one extra. Drift is no fault: checking always gives a report.
-/

namespace ModuleRoutes

namespace Conformance

/-- An observed route with the family that it is compared by. -/
structure Observation where
  route : Route
  family : Family
deriving DecidableEq, Repr

/-- The family that an observed route is compared by. The action of a resource route that is an
alias counts as its verb, unless the table names the action itself or the route has not the verb's
method and addressing. -/
def comparableFamily (expected : List Family) (route : Route) : Family :=
  let family := route.handlerKey.family
  if family.kind ≠ .resource ∨ family ∈ expected then family
  else
    match Name.normalize family.action with
    | .error _ => family
    | .ok token =>
      let hasId := (pathSegments route.path).any isParameter
      { family with action := Verb.canonicalActionFor token route.method hasId }

/-- A list without its first member of a kind, and that member. -/
def takeFirst? {α : Type} (p : α → Bool) : List α → Option (α × List α)
  | [] => none
  | item :: items =>
    if p item then some (item, items)
    else (takeFirst? p items).map fun (found, rest) => (found, item :: rest)

/-- Pairs of expected and observed routes, and what is left of both. -/
structure Pairing where
  pairs : List (Route × Observation)
  unpaired : List Route
  left : List Observation

/-- Pairs each expected route in order with the first fitting observation that is left. -/
def pairUp (fits : Route → Observation → Bool) : List Route → List Observation → Pairing
  | [], left => ⟨[], [], left⟩
  | route :: routes, left =>
    match takeFirst? (fits route) left with
    | some (observation, rest) =>
      let pairing := pairUp fits routes rest
      { pairing with pairs := (route, observation) :: pairing.pairs }
    | none =>
      let pairing := pairUp fits routes left
      { pairing with unpaired := route :: pairing.unpaired }

/-- Whether an observation has the method and family of an expected route. -/
def sameFamily (route : Route) (observation : Observation) : Bool :=
  observation.route.method = route.method && observation.family = route.handlerKey.family

/-- Whether an observation agrees with an expected route in method, path and family. -/
def sameRoute (route : Route) (observation : Observation) : Bool :=
  observation.route.path = route.path && sameFamily route observation

/-- The finding of an expected route. -/
def expectedFinding (route : Route) (verdict : Verdict) : Finding :=
  ⟨route.handlerKey.family, route.method, verdict⟩

/-- The report on the observed routes of a module. -/
def check (table : RouteTable) (observed : List Route) : Report :=
  let families := table.handlerKeys.map HandlerKey.family
  let observations := observed.map fun route => ⟨route, comparableFamily families route⟩
  let exact := pairUp sameRoute table.routes observations
  let moved := pairUp sameFamily exact.unpaired exact.left
  let matched := exact.pairs.map fun (route, _) => expectedFinding route (.matched route.path)
  let mismatches := moved.pairs.map fun (route, observation) =>
    expectedFinding route (.pathMismatch route.path observation.route.path)
  let missing := moved.unpaired.map fun route => expectedFinding route (.missing route.path)
  let extra := moved.left.map fun observation =>
    ⟨observation.family, observation.route.method, .extra observation.route.path⟩
  ⟨table.moduleId, matched, (mismatches ++ missing ++ extra).mergeSort Finding.notAfter⟩

end Conformance

end ModuleRoutes
