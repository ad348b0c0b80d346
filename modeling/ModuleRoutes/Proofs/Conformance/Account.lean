import ModuleRoutes.Proofs.Conformance.Check

/-!
# Every route in one finding

Both sides of a comparison are accounted for. The routes of the table turn up once each among the
findings that are matched, on another path or missing, and the observed routes once each among those
that are matched, on another path or extra (`ModuleRoutes.Conformance.check_accounts`). A finding on
another path never has equal paths: had they been equal, the first pass would have paired them.
-/

namespace ModuleRoutes

namespace Conformance

/-- What findings tell of a route of the table: method, family and expected path. -/
def expectedEntry (route : Route) : Method × Family × Option String :=
  (route.method, route.handlerKey.family, some route.path)

/-- What findings tell of an observed route: method, comparable family and observed path. -/
def observedEntry (table : RouteTable) (route : Route) : Method × Family × Option String :=
  (route.method, comparableFamily (table.handlerKeys.map HandlerKey.family) route, some route.path)

/-- What findings tell of an observation: method, comparable family and path. -/
def Observation.entry (observation : Observation) : Method × Family × Option String :=
  (observation.route.method, observation.family, some observation.route.path)

namespace Finding

def expectedEntry (finding : Finding) : Method × Family × Option String :=
  (finding.method, finding.family, finding.verdict.expectedPath?)

def observedEntry (finding : Finding) : Method × Family × Option String :=
  (finding.method, finding.family, finding.verdict.observedPath?)

end Finding

/-- A report that accounts for every route of a table and every observed route exactly once. -/
structure Accounts (table : RouteTable) (observed : List Route) (report : Report) : Prop where
  expected : ((report.ofClass .matched ++ report.ofClass .pathMismatch ++
    report.ofClass .missing).map Finding.expectedEntry).Perm (table.routes.map expectedEntry)
  observed : ((report.ofClass .matched ++ report.ofClass .pathMismatch ++
    report.ofClass .extra).map Finding.observedEntry).Perm (observed.map (observedEntry table))
  inTableOrder : ((report.ofClass .matched).map Finding.expectedEntry).Sublist
    (table.routes.map expectedEntry)
  matched : ∀ finding ∈ report.ofClass .matched, ∃ path,
    finding.verdict.expectedPath? = some path ∧ finding.verdict.observedPath? = some path
  pathMismatch : ∀ finding ∈ report.ofClass .pathMismatch, ∃ expected observed,
    finding.verdict.expectedPath? = some expected ∧
      finding.verdict.observedPath? = some observed ∧ expected ≠ observed ∧
        finding.verdict.hint? = some (Hint.classify expected observed)
  missing : ∀ finding ∈ report.ofClass .missing,
    finding.verdict.observedPath? = none ∧ finding.verdict.hint? = none
  extra : ∀ finding ∈ report.ofClass .extra,
    finding.verdict.expectedPath? = none ∧ finding.verdict.hint? = none

/-- The routes that pairing pairs stand in the order in which they were expected. -/
theorem pairUp_pairs_sublist (fits : Route → Observation → Bool) (routes : List Route)
    (left : List Observation) :
    ((pairUp fits routes left).pairs.map Prod.fst).Sublist routes := by
  induction routes generalizing left with
  | nil => exact List.Sublist.refl _
  | cons route routes ih =>
      cases taken : takeFirst? (fits route) left with
      | none =>
          rw [pairUp_cons_of_none taken]
          exact (ih left).cons route
      | some result =>
          obtain ⟨observation, remaining⟩ := result
          rw [pairUp_cons_of_some taken]
          exact (ih remaining).cons_cons route

/-- The routes that pairing leaves stand in the order in which they were expected. -/
theorem pairUp_unpaired_sublist (fits : Route → Observation → Bool) (routes : List Route)
    (left : List Observation) : (pairUp fits routes left).unpaired.Sublist routes := by
  induction routes generalizing left with
  | nil => exact List.Sublist.refl _
  | cons route routes ih =>
      cases taken : takeFirst? (fits route) left with
      | none =>
          rw [pairUp_cons_of_none taken]
          exact (ih left).cons_cons route
      | some result =>
          obtain ⟨observation, remaining⟩ := result
          rw [pairUp_cons_of_some taken]
          exact (ih remaining).cons route

/-- The observations that pairing leaves stand in their order. -/
theorem pairUp_left_sublist (fits : Route → Observation → Bool) (routes : List Route)
    (left : List Observation) : (pairUp fits routes left).left.Sublist left := by
  induction routes generalizing left with
  | nil => exact List.Sublist.refl _
  | cons route routes ih =>
      cases taken : takeFirst? (fits route) left with
      | none =>
          rw [pairUp_cons_of_none taken]
          exact ih left
      | some result =>
          obtain ⟨observation, remaining⟩ := result
          rw [pairUp_cons_of_some taken]
          exact (ih remaining).trans (takeFirst?_sublist taken)

variable {table : RouteTable} {observed : List Route}

/-- The drift of a report holds no matched finding, so these stand in it as pairing found them. -/
theorem ofClass_matched :
    (check table observed).ofClass .matched = findingsOf table observed .matched := by
  have drift := (List.mergeSort_perm (findingsOf table observed .pathMismatch ++
    findingsOf table observed .missing ++ findingsOf table observed .extra)
      Finding.notAfter).filter fun finding => finding.driftClass = .matched
  have noneMatched : ((findingsOf table observed .pathMismatch ++
      findingsOf table observed .missing ++ findingsOf table observed .extra).filter
        fun finding => finding.driftClass = .matched) = [] := by
    simp [filter_findingsOf]
  rw [noneMatched] at drift
  rw [check_eq, Report.ofClass, List.filter_append, drift.eq_nil, filter_findingsOf, if_pos rfl,
    List.append_nil]

theorem ofClass_of_ne_matched {wanted : DriftClass} (drifts : wanted ≠ .matched) :
    (check table observed).ofClass wanted =
      (check table observed).drift.filter fun finding => finding.driftClass = wanted := by
  rw [check_eq, Report.ofClass, List.filter_append, filter_findingsOf, if_neg drifts.symm,
    List.nil_append]

/-! ## The two sides of a report -/

theorem map_expectedEntry_matched :
    (findingsOf table observed .matched).map Finding.expectedEntry =
      ((exactPairing table observed).pairs.map Prod.fst).map expectedEntry := by
  rw [findingsOf, List.map_map, List.map_map]
  rfl

theorem expectedEntries_perm :
    ((findingsOf table observed .matched ++ findingsOf table observed .pathMismatch ++
      findingsOf table observed .missing).map Finding.expectedEntry).Perm
        (table.routes.map expectedEntry) := by
  have elsewhere : (findingsOf table observed .pathMismatch).map Finding.expectedEntry =
      ((movedPairing table observed).pairs.map Prod.fst).map expectedEntry := by
    rw [findingsOf, List.map_map, List.map_map]
    rfl
  have nowhere : (findingsOf table observed .missing).map Finding.expectedEntry =
      (movedPairing table observed).unpaired.map expectedEntry := by
    rw [findingsOf, List.map_map]
    rfl
  have moved := (movedPairing_exhausts table observed).expected.map expectedEntry
  have exact := (exactPairing_exhausts table observed).expected.map expectedEntry
  rw [List.map_append] at moved exact
  rw [List.map_append, List.map_append, map_expectedEntry_matched, elsewhere, nowhere,
    List.append_assoc]
  exact (moved.append_left _).trans exact

/-- A matched finding names the expected route, which agrees with the observed one in all that is
told of it. -/
theorem map_observedEntry_matched :
    (findingsOf table observed .matched).map Finding.observedEntry =
      ((exactPairing table observed).pairs.map Prod.snd).map Observation.entry := by
  rw [findingsOf, List.map_map, List.map_map]
  refine List.map_congr_left fun pair member => ?_
  have same := (sameRoute_iff pair.1 pair.2).mp
    ((exactPairing_exhausts table observed).fitting pair member)
  simp only [expectedKey, observationKey, Prod.mk.injEq] at same
  obtain ⟨method, path, family⟩ := same
  simp only [Function.comp_apply, Finding.observedEntry, expectedFinding, Verdict.observedPath?,
    Observation.entry, method, path, family]

theorem map_observedEntry_pathMismatch :
    (findingsOf table observed .pathMismatch).map Finding.observedEntry =
      ((movedPairing table observed).pairs.map Prod.snd).map Observation.entry := by
  rw [findingsOf, List.map_map, List.map_map]
  refine List.map_congr_left fun pair member => ?_
  have same := (sameFamily_iff pair.1 pair.2).mp
    ((movedPairing_exhausts table observed).fitting pair member)
  simp only [pathless, expectedKey, observationKey, Prod.mk.injEq] at same
  obtain ⟨method, family⟩ := same
  simp only [Function.comp_apply, Finding.observedEntry, expectedFinding, Verdict.observedPath?,
    Observation.entry, method, family]

theorem observedEntries_perm :
    ((findingsOf table observed .matched ++ findingsOf table observed .pathMismatch ++
      findingsOf table observed .extra).map Finding.observedEntry).Perm
        (observed.map (observedEntry table)) := by
  have unexpected : (findingsOf table observed .extra).map Finding.observedEntry =
      (movedPairing table observed).left.map Observation.entry := by
    rw [findingsOf, List.map_map]
    rfl
  have entries : (observations table observed).map Observation.entry =
      observed.map (observedEntry table) := by
    rw [observations, List.map_map]
    rfl
  have moved := (movedPairing_exhausts table observed).observed.map Observation.entry
  have exact := (exactPairing_exhausts table observed).observed.map Observation.entry
  rw [List.map_append] at moved exact
  rw [List.map_append, List.map_append, map_observedEntry_matched, map_observedEntry_pathMismatch,
    unexpected, List.append_assoc, ← entries]
  exact (moved.append_left _).trans exact

/-- Routes paired by the second pass are on different paths, for the first pass left no two that
agree in method, path and family. -/
theorem path_ne_of_mem_movedPairing {pair : Route × Observation}
    (member : pair ∈ (movedPairing table observed).pairs) :
    pair.1.path ≠ pair.2.route.path := by
  intro samePath
  have moved := movedPairing_exhausts table observed
  have unpaired : pair.1 ∈ (exactPairing table observed).unpaired := by
    apply moved.expected.mem_iff.mp
    exact List.mem_append_left _ (List.mem_map_of_mem member)
  have left : pair.2 ∈ (exactPairing table observed).left := by
    apply moved.observed.mem_iff.mp
    exact List.mem_append_left _ (List.mem_map_of_mem member)
  have apart := (exactPairing_exhausts table observed).exhausted _ unpaired _ left
  have sameFamily := moved.fitting pair member
  rw [sameRoute, sameFamily, Bool.and_true, decide_eq_false_iff_not] at apart
  exact apart samePath.symm

/-- **Accounting.** A report accounts for every route of the table and every observed route exactly
once. -/
theorem check_accounts (table : RouteTable) (observed : List Route) :
    Accounts table observed (check table observed) := by
  have found := @ofClass_perm table observed
  have inClass : ∀ wanted finding, finding ∈ (check table observed).ofClass wanted →
      finding ∈ findingsOf table observed wanted := by
    intro wanted finding member
    exact (found wanted).mem_iff.mp member
  constructor
  case expected =>
    have both := (found .matched).append (found .pathMismatch)
    exact ((both.append (found .missing)).map _).trans expectedEntries_perm
  case observed =>
    have both := (found .matched).append (found .pathMismatch)
    exact ((both.append (found .extra)).map _).trans observedEntries_perm
  case inTableOrder =>
    rw [ofClass_matched, map_expectedEntry_matched]
    exact (pairUp_pairs_sublist _ _ _).map _
  case matched =>
    intro finding member
    obtain ⟨pair, _, rfl⟩ := List.mem_map.mp (inClass _ _ member)
    exact ⟨pair.1.path, rfl, rfl⟩
  case pathMismatch =>
    intro finding member
    obtain ⟨pair, inPairs, rfl⟩ := List.mem_map.mp (inClass _ _ member)
    exact ⟨pair.1.path, pair.2.route.path, rfl, rfl, path_ne_of_mem_movedPairing inPairs, rfl⟩
  case missing =>
    intro finding member
    obtain ⟨route, _, rfl⟩ := List.mem_map.mp (inClass _ _ member)
    exact ⟨rfl, rfl⟩
  case extra =>
    intro finding member
    obtain ⟨observation, _, rfl⟩ := List.mem_map.mp (inClass _ _ member)
    exact ⟨rfl, rfl⟩

end Conformance

end ModuleRoutes
