import ModuleRoutes.Proofs.Conformance.Pairing

/-!
# What a report counts

A report matches as many routes as the table and the observed routes allow, in method, path and
family, and with the routes on other paths as many as they allow in method and family
(`ModuleRoutes.Conformance.check_optimal`). It is clean exactly when both sides have the same
methods, paths and families, each equally often.
-/

namespace ModuleRoutes

namespace Conformance

/-! ## Keys of comparison -/

/-- What a route of a table is compared by: method, path and family. -/
def expectedKey (route : Route) : Method × String × Family :=
  (route.method, route.path, route.handlerKey.family)

/-- What an observed route is compared by: method, path and comparable family. -/
def observedKey (table : RouteTable) (route : Route) : Method × String × Family :=
  (route.method, route.path, comparableFamily (table.handlerKeys.map HandlerKey.family) route)

/-- What a finding tells of: method, path and family. -/
def findingKey (finding : Finding) : Method × String × Family :=
  (finding.method, finding.verdict.path, finding.family)

/-- A key of comparison without its path. -/
def pathless (key : Method × String × Family) : Method × Family := (key.1, key.2.2)

/-- What an observation is compared by. -/
def observationKey (observation : Observation) : Method × String × Family :=
  (observation.route.method, observation.route.path, observation.family)

theorem sameFamily_iff (route : Route) (observation : Observation) :
    sameFamily route observation = true ↔
      pathless (expectedKey route) = pathless (observationKey observation) := by
  simp only [sameFamily, Bool.and_eq_true, decide_eq_true_eq, pathless, expectedKey, observationKey,
    Prod.mk.injEq]
  exact and_congr eq_comm eq_comm

theorem sameRoute_iff (route : Route) (observation : Observation) :
    sameRoute route observation = true ↔ expectedKey route = observationKey observation := by
  simp only [sameRoute, sameFamily, Bool.and_eq_true, decide_eq_true_eq, expectedKey,
    observationKey, Prod.mk.injEq]
  constructor
  · rintro ⟨path, method, family⟩
    exact ⟨method.symm, path.symm, family.symm⟩
  · rintro ⟨method, path, family⟩
    exact ⟨path.symm, method.symm, family.symm⟩

/-! ## The findings of a report -/

/-- The observed routes with the families that they are compared by. -/
def observations (table : RouteTable) (observed : List Route) : List Observation :=
  observed.map fun route =>
    ⟨route, comparableFamily (table.handlerKeys.map HandlerKey.family) route⟩

/-- The pairing of routes that agree in method, path and family. -/
def exactPairing (table : RouteTable) (observed : List Route) : Pairing :=
  pairUp sameRoute table.routes (observations table observed)

/-- The pairing of the other routes by method and family. -/
def movedPairing (table : RouteTable) (observed : List Route) : Pairing :=
  pairUp sameFamily (exactPairing table observed).unpaired (exactPairing table observed).left

/-- The findings of a class before they are put in order. -/
def findingsOf (table : RouteTable) (observed : List Route) : DriftClass → List Finding
  | .matched => (exactPairing table observed).pairs.map fun pair =>
      expectedFinding pair.1 (.matched pair.1.path)
  | .pathMismatch => (movedPairing table observed).pairs.map fun pair =>
      expectedFinding pair.1 (.pathMismatch pair.1.path pair.2.route.path)
  | .missing => (movedPairing table observed).unpaired.map fun route =>
      expectedFinding route (.missing route.path)
  | .extra => (movedPairing table observed).left.map fun observation =>
      ⟨observation.family, observation.route.method, .extra observation.route.path⟩

variable {table : RouteTable} {observed : List Route}

theorem check_eq : check table observed =
    ⟨table.moduleId, findingsOf table observed .matched,
      (findingsOf table observed .pathMismatch ++ findingsOf table observed .missing ++
        findingsOf table observed .extra).mergeSort Finding.notAfter⟩ := rfl

theorem filter_findingsOf (driftClass wanted : DriftClass) :
    ((findingsOf table observed driftClass).filter fun finding => finding.driftClass = wanted) =
      if driftClass = wanted then findingsOf table observed driftClass else [] := by
  have classed : ∀ finding ∈ findingsOf table observed driftClass,
      finding.driftClass = driftClass := by
    intro finding member
    cases driftClass <;> obtain ⟨_, _, rfl⟩ := List.mem_map.mp member <;> rfl
  split
  · next same =>
    exact List.filter_eq_self.mpr fun finding member => by simp [classed finding member, same]
  · next different =>
    refine List.filter_eq_nil_iff.mpr fun finding member => ?_
    simp [classed finding member, different]

/-- The findings of a class in a report are those of the pairing, in another order. -/
theorem ofClass_perm (wanted : DriftClass) :
    ((check table observed).ofClass wanted).Perm (findingsOf table observed wanted) := by
  have drift := (List.mergeSort_perm (findingsOf table observed .pathMismatch ++
    findingsOf table observed .missing ++ findingsOf table observed .extra) Finding.notAfter)
  have all := (drift.append_left (findingsOf table observed .matched)).filter fun finding =>
    finding.driftClass = wanted
  rw [check_eq, Report.ofClass]
  refine all.trans (.of_eq ?_)
  simp only [List.filter_append, filter_findingsOf]
  cases wanted <;> simp

theorem exactPairing_exhausts (table : RouteTable) (observed : List Route) :
    Exhausts sameRoute table.routes (observations table observed) (exactPairing table observed) :=
  pairUp_exhausts _ _ _

theorem movedPairing_exhausts (table : RouteTable) (observed : List Route) :
    Exhausts sameFamily (exactPairing table observed).unpaired (exactPairing table observed).left
      (movedPairing table observed) :=
  pairUp_exhausts _ _ _

/-- A report is clean when the first pairing leaves no route. -/
theorem isClean_iff : (check table observed).isClean = true ↔
    (exactPairing table observed).unpaired = [] ∧ (exactPairing table observed).left = [] := by
  have drift := List.mergeSort_perm (findingsOf table observed .pathMismatch ++
    findingsOf table observed .missing ++ findingsOf table observed .extra) Finding.notAfter
  have nothing : (check table observed).isClean = true ↔
      ((movedPairing table observed).pairs = [] ∧ (movedPairing table observed).unpaired = []) ∧
        (movedPairing table observed).left = [] := by
    rw [check_eq, Report.isClean, List.isEmpty_iff, ← List.perm_nil, drift.congr_left,
      List.perm_nil]
    simp [findingsOf, and_assoc]
  have moved := movedPairing_exhausts table observed
  rw [nothing]
  constructor
  · rintro ⟨⟨pairs, unpaired⟩, left⟩
    have noRoutes := moved.expected
    have noObservations := moved.observed
    rw [pairs, unpaired] at noRoutes
    rw [pairs, left] at noObservations
    exact ⟨List.nil_perm.mp noRoutes, List.nil_perm.mp noObservations⟩
  · rintro ⟨unpaired, left⟩
    rw [movedPairing, unpaired, left]
    exact ⟨⟨rfl, rfl⟩, rfl⟩

/-! ## Counting -/

theorem map_observationKey_observations (table : RouteTable) (observed : List Route) :
    (observations table observed).map observationKey = observed.map (observedKey table) := by
  rw [observations, List.map_map]
  rfl

theorem count_matched (table : RouteTable) (observed : List Route)
    (key : Method × String × Family) :
    (((check table observed).ofClass .matched).map findingKey).count key =
      min ((table.routes.map expectedKey).count key)
        ((observed.map (observedKey table)).count key) := by
  have pairs := (exactPairing_exhausts table observed).count_pairs sameRoute_iff key
  rw [((ofClass_perm .matched).map findingKey).count_eq, findingsOf, List.map_map,
    ← map_observationKey_observations, ← pairs]
  rfl

theorem count_paired (table : RouteTable) (observed : List Route) (key : Method × Family) :
    (((check table observed).ofClass .matched ++ (check table observed).ofClass .pathMismatch).map
        fun finding => pathless (findingKey finding)).count key =
      min ((table.routes.map fun route => pathless (expectedKey route)).count key)
        ((observed.map fun route => pathless (observedKey table route)).count key) := by
  have exact := exactPairing_exhausts table observed
  have inTable := exact.count_expected (fun route => pathless (expectedKey route)) key
  have inObserved := exact.count_observed (fun route observation same =>
    congrArg pathless ((sameRoute_iff route observation).mp same)) key
  have moved := (movedPairing_exhausts table observed).count_pairs sameFamily_iff key
  have keys : ((observations table observed).map fun observation =>
      pathless (observationKey observation)) =
        observed.map fun route => pathless (observedKey table route) := by
    rw [observations, List.map_map]
    rfl
  have matched : (((check table observed).ofClass .matched).map fun finding =>
      pathless (findingKey finding)).count key =
        ((exactPairing table observed).pairs.map fun pair =>
          pathless (expectedKey pair.1)).count key := by
    rw [((ofClass_perm .matched).map _).count_eq, findingsOf, List.map_map]
    rfl
  have elsewhere : (((check table observed).ofClass .pathMismatch).map fun finding =>
      pathless (findingKey finding)).count key =
        ((movedPairing table observed).pairs.map fun pair =>
          pathless (expectedKey pair.1)).count key := by
    rw [((ofClass_perm .pathMismatch).map _).count_eq, findingsOf, List.map_map]
    rfl
  -- The exact pairs count on both sides, so the minimum of the remainders adds up to the minimum.
  rw [List.map_append, List.count_append, matched, elsewhere, inTable, ← keys, inObserved, moved]
  omega

theorem pathless_ne_of_missing_of_extra {missing extra : Finding}
    (isMissing : missing ∈ (check table observed).ofClass .missing)
    (isExtra : extra ∈ (check table observed).ofClass .extra) :
    pathless (findingKey missing) ≠ pathless (findingKey extra) := by
  obtain ⟨route, unpaired, rfl⟩ := List.mem_map.mp ((ofClass_perm .missing).mem_iff.mp isMissing)
  obtain ⟨observation, left, rfl⟩ := List.mem_map.mp ((ofClass_perm .extra).mem_iff.mp isExtra)
  intro same
  have fit := (sameFamily_iff route observation).mpr same
  rw [(movedPairing_exhausts table observed).exhausted route unpaired observation left] at fit
  cases fit

theorem isClean_iff_perm : (check table observed).isClean = true ↔
    (table.routes.map expectedKey).Perm (observed.map (observedKey table)) := by
  have exact := exactPairing_exhausts table observed
  have inTable := exact.count_expected expectedKey
  have inObserved := exact.count_observed fun route observation =>
    (sameRoute_iff route observation).mp
  rw [isClean_iff, List.perm_iff_count]
  simp only [map_observationKey_observations] at inObserved
  constructor
  · rintro ⟨unpaired, left⟩ key
    rw [inTable, inObserved, unpaired, left, List.map_nil, List.map_nil]
  · intro same
    have matched := exact.count_pairs sameRoute_iff
    simp only [map_observationKey_observations] at matched
    have noRest : ∀ key, ((exactPairing table observed).unpaired.map expectedKey).count key = 0 ∧
        ((exactPairing table observed).left.map observationKey).count key = 0 := by
      intro key
      have inTable := inTable key
      have inObserved := inObserved key
      have matched := matched key
      have same := same key
      omega
    constructor
    · by_contra nonempty
      obtain ⟨route, member⟩ := List.exists_mem_of_ne_nil _ nonempty
      exact absurd (List.mem_map_of_mem member) (List.count_eq_zero.mp (noRest _).1)
    · by_contra nonempty
      obtain ⟨observation, member⟩ := List.exists_mem_of_ne_nil _ nonempty
      exact absurd (List.mem_map_of_mem member) (List.count_eq_zero.mp (noRest _).2)

/-- **Optimal pairing.** Of every method, path and family there are as many matched findings, and of
every method and family as many findings matched or on another path, as the table and the observed
routes allow. So no missing and extra finding share method and family, and a report is clean exactly
when the table and the observed routes have the same methods, paths and families equally often. -/
theorem check_optimal (table : RouteTable) (observed : List Route) :
    (∀ key, (((check table observed).ofClass .matched).map findingKey).count key =
      min ((table.routes.map expectedKey).count key)
        ((observed.map (observedKey table)).count key)) ∧
    (∀ key, (((check table observed).ofClass .matched ++
        (check table observed).ofClass .pathMismatch).map
          fun finding => pathless (findingKey finding)).count key =
      min ((table.routes.map fun route => pathless (expectedKey route)).count key)
        ((observed.map fun route => pathless (observedKey table route)).count key)) ∧
    (∀ missing ∈ (check table observed).ofClass .missing,
      ∀ extra ∈ (check table observed).ofClass .extra,
        pathless (findingKey missing) ≠ pathless (findingKey extra)) ∧
    ((check table observed).isClean = true ↔
      (table.routes.map expectedKey).Perm (observed.map (observedKey table))) :=
  ⟨count_matched table observed, count_paired table observed,
    fun _ isMissing _ isExtra => pathless_ne_of_missing_of_extra isMissing isExtra,
    isClean_iff_perm⟩

end Conformance

end ModuleRoutes
