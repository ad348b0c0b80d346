import ModuleRoutes.Proofs.Compiler.Layout
import ModuleRoutes.Proofs.Conformance.Account
import ModuleRoutes.Proofs.Conformance.Order

/-!
# The order of observed routes

The order in which routes are observed leaves no trace in the verdict: the same routes of the table
are matched, missing or on another path, and as many routes are extra
(`ModuleRoutes.Conformance.check_perm`). Which observed path an expected route is paired with may
depend on the order, but only where observed routes that the first pass leaves share method and
family.
-/

namespace ModuleRoutes

namespace Conformance

/-- Two reports that tell the same of the routes of a table, and of equally many extra routes. -/
structure SameVerdict (report other : Report) : Prop where
  matched : report.matched = other.matched
  missing : report.ofClass .missing = other.ofClass .missing
  pathMismatch : (report.ofClass .pathMismatch).map Finding.expectedEntry =
    (other.ofClass .pathMismatch).map Finding.expectedEntry
  extra : report.count .extra = other.count .extra

/-- No two observed routes that are left after the exact pairing share method and family. -/
def LeftApart (table : RouteTable) (observed : List Route) : Prop :=
  ((exactPairing table observed).left.map fun observation =>
    (observation.route.method, observation.family)).Nodup

instance (table : RouteTable) (observed : List Route) : Decidable (LeftApart table observed) :=
  inferInstanceAs (Decidable (List.Nodup _))

variable {table : RouteTable} {observed other : List Route}

/-! ## The drift of a report, class by class -/

/-- What a report lists of a class of drift are the findings of the class in report order. -/
theorem ofClass_eq_mergeSort {wanted : DriftClass} (drifts : wanted ≠ .matched) :
    (check table observed).ofClass wanted =
      (findingsOf table observed wanted).mergeSort Finding.notAfter := by
  rw [ofClass_of_ne_matched drifts, check_eq,
    filter_mergeSort Finding.notAfter_trans Finding.notAfter_total]
  simp only [List.filter_append, filter_findingsOf]
  cases wanted with
  | matched => exact absurd rfl drifts
  | missing | extra | pathMismatch => simp

theorem count_extra :
    (check table observed).count .extra = (movedPairing table observed).left.length := by
  have drift := (List.mergeSort_perm (findingsOf table observed .pathMismatch ++
    findingsOf table observed .missing ++ findingsOf table observed .extra)
      Finding.notAfter).filter fun finding => finding.driftClass = .extra
  refine drift.length_eq.trans ?_
  simp only [List.filter_append, filter_findingsOf]
  simp [findingsOf]

/-- A finding as one of a missing route. -/
def Finding.asMissing (finding : Finding) : Finding :=
  { finding with verdict := .missing finding.verdict.path }

/-- Routes on other paths are listed in the order in which they would be as missing ones. -/
theorem map_asMissing_ofClass_pathMismatch :
    ((check table observed).ofClass .pathMismatch).map Finding.asMissing =
      (((movedPairing table observed).pairs.map Prod.fst).map fun route =>
        expectedFinding route (.missing route.path)).mergeSort Finding.notAfter := by
  have listed : (findingsOf table observed .pathMismatch).map Finding.asMissing =
      ((movedPairing table observed).pairs.map Prod.fst).map fun route =>
        expectedFinding route (.missing route.path) := by
    rw [findingsOf, List.map_map, List.map_map]
    rfl
  have order : ∀ left ∈ findingsOf table observed .pathMismatch,
      ∀ right ∈ findingsOf table observed .pathMismatch,
        left.notAfter right = left.asMissing.notAfter right.asMissing := by
    intro left leftMember right rightMember
    obtain ⟨_, _, rfl⟩ := List.mem_map.mp leftMember
    obtain ⟨_, _, rfl⟩ := List.mem_map.mp rightMember
    rfl
  rw [ofClass_eq_mergeSort (by decide), List.map_mergeSort order, listed]

theorem map_expectedEntry_ofClass_pathMismatch :
    ((check table observed).ofClass .pathMismatch).map Finding.expectedEntry =
      (((check table observed).ofClass .pathMismatch).map Finding.asMissing).map
        Finding.expectedEntry := by
  rw [List.map_map]
  refine List.map_congr_left fun finding member => ?_
  obtain ⟨_, _, rfl⟩ := List.mem_map.mp ((ofClass_perm .pathMismatch).mem_iff.mp member)
  rfl

/-! ## Pairing in another order -/

theorem perm_observationKeys (order : observed.Perm other) :
    ((observations table observed).map observationKey).Perm
      ((observations table other).map observationKey) := by
  rw [map_observationKey_observations, map_observationKey_observations]
  exact order.map _

theorem exactPairing_of_perm (table : RouteTable) (order : observed.Perm other) :
    (exactPairing table observed).pairs.map Prod.fst =
        (exactPairing table other).pairs.map Prod.fst ∧
      (exactPairing table observed).unpaired = (exactPairing table other).unpaired ∧
      ((exactPairing table observed).left.map observationKey).Perm
        ((exactPairing table other).left.map observationKey) :=
  pairUp_of_keys sameRoute_iff table.routes (perm_observationKeys order)

theorem movedPairing_of_perm (table : RouteTable) (order : observed.Perm other) :
    (movedPairing table observed).pairs.map Prod.fst =
        (movedPairing table other).pairs.map Prod.fst ∧
      (movedPairing table observed).unpaired = (movedPairing table other).unpaired ∧
      (movedPairing table observed).left.length = (movedPairing table other).left.length := by
  obtain ⟨-, unpaired, keys⟩ := exactPairing_of_perm table order
  have familyKeys := keys.map pathless
  rw [List.map_map, List.map_map] at familyKeys
  have moved := pairUp_of_keys sameFamily_iff (exactPairing table observed).unpaired familyKeys
  rw [movedPairing, movedPairing, ← unpaired]
  refine ⟨moved.1, moved.2.1, ?_⟩
  simpa using moved.2.2.length_eq

/-- The findings of drift before they are put in order, when the routes that are left are apart. -/
theorem findings_perm (order : observed.Perm other) (apart : LeftApart table observed) :
    findingsOf table observed .pathMismatch = findingsOf table other .pathMismatch ∧
      (findingsOf table observed .extra).Perm (findingsOf table other .extra) := by
  obtain ⟨-, unpaired, keys⟩ := exactPairing_of_perm table order
  obtain ⟨pairs, left⟩ :=
    pairUp_of_entries sameFamily_iff (exactPairing table observed).unpaired apart keys
  constructor
  · have written : ∀ routes : List Route, findingsOf table routes .pathMismatch =
        ((movedPairing table routes).pairs.map (Prod.map id observationKey)).map fun pair =>
          expectedFinding pair.1 (.pathMismatch pair.1.path pair.2.2.1) := by
      intro routes
      rw [findingsOf, List.map_map]
      rfl
    rw [written, written, movedPairing, movedPairing, pairs, unpaired]
  · have written : ∀ routes : List Route, findingsOf table routes .extra =
        ((movedPairing table routes).left.map observationKey).map fun key =>
          ⟨key.2.2, key.1, .extra key.2.1⟩ := by
      intro routes
      rw [findingsOf, List.map_map]
      rfl
    rw [written, written, movedPairing, movedPairing, ← unpaired]
    exact left.map _

/-! ## Reports -/

theorem sameVerdict_of_perm (order : observed.Perm other) :
    SameVerdict (check table observed) (check table other) := by
  obtain ⟨exactPairs, -, -⟩ := exactPairing_of_perm table order
  obtain ⟨movedPairs, unpaired, left⟩ := movedPairing_of_perm table order
  constructor
  case matched =>
    have written : ∀ routes : List Route, (check table routes).matched =
        ((exactPairing table routes).pairs.map Prod.fst).map fun route =>
          expectedFinding route (.matched route.path) := by
      intro routes
      rw [check_eq, List.map_map]
      rfl
    rw [written, written, exactPairs]
  case missing =>
    rw [ofClass_eq_mergeSort (by decide), ofClass_eq_mergeSort (by decide), findingsOf, findingsOf,
      unpaired]
  case pathMismatch =>
    rw [map_expectedEntry_ofClass_pathMismatch, map_expectedEntry_ofClass_pathMismatch,
      map_asMissing_ofClass_pathMismatch, map_asMissing_ofClass_pathMismatch, movedPairs]
  case extra => rw [count_extra, count_extra, left]

theorem drift_perm (order : observed.Perm other) (apart : LeftApart table observed) :
    (check table observed).drift.Perm (check table other).drift := by
  obtain ⟨-, unpaired, -⟩ := movedPairing_of_perm table order
  obtain ⟨mismatches, extra⟩ := findings_perm order apart
  have missing : findingsOf table observed .missing = findingsOf table other .missing := by
    rw [findingsOf, findingsOf, unpaired]
  have sorted := fun routes => List.mergeSort_perm (findingsOf table routes .pathMismatch ++
    findingsOf table routes .missing ++ findingsOf table routes .extra) Finding.notAfter
  refine (sorted observed).trans (.trans ?_ (sorted other).symm)
  rw [mismatches, missing]
  exact extra.append_left _

/-- **The order of observation.** Routes observed in another order give the same verdict on every
route of the table, in the same order, and as many extra routes; and if no two routes that the exact
pairing leaves share method and family, they give the same drift up to order. -/
theorem check_perm (table : RouteTable) {observed other : List Route}
    (order : observed.Perm other) :
    SameVerdict (check table observed) (check table other) ∧
      (LeftApart table observed → (check table observed).drift.Perm (check table other).drift) :=
  ⟨sameVerdict_of_perm order, drift_perm order⟩

/-- A route on the path of a list of details instead of an item's. -/
def besideItem (route : Route) : Route :=
  if route.path = "/listings/:id" then { route with path := "/listings/detail/:id" } else route

theorem check_reverse : ∃ table,
    Compiler.default.compile (Definition.template "m" "listings" "tags" "audits") = .ok table ∧
    LeftApart table (table.routes.map besideItem) ∧
    SameVerdict (check table (table.routes.map besideItem))
      (check table (table.routes.map besideItem).reverse) ∧
    (check table (table.routes.map besideItem)).drift.Perm
      (check table (table.routes.map besideItem).reverse).drift := by
  obtain ⟨table, compiled, apart⟩ := Outcome.exists_of_any_toOption (by decide +kernel :
    (Compiler.default.compile (Definition.template "m" "listings" "tags" "audits")).toOption.any
      (fun table => decide (LeftApart table (table.routes.map besideItem))) = true)
  have leftApart := of_decide_eq_true apart
  have verdict := check_perm table (List.reverse_perm (table.routes.map besideItem)).symm
  exact ⟨table, compiled, leftApart, verdict.1, verdict.2 leftApart⟩

end Conformance

end ModuleRoutes
