import Mathlib.Data.Prod.Lex
import Mathlib.Data.String.Basic
import Mathlib.Order.WithBot
import ModuleRoutes.Proofs.Conformance.Account
import ModuleRoutes.Proofs.Conformance.Order
import ModuleRoutes.Proofs.Places

/-!
# What a report lists

The drift of a report is listed by kind, action, class, resource and path. Findings that agree in
all of these stand as their routes do: first those of the table in its order, then the extra ones as
they were observed. The text of a report counts the findings in its first line; then each kind that
drifts has one header, and behind it the findings of this kind as they are listed
(`ModuleRoutes.Conformance.check_lists`).
-/

namespace ModuleRoutes

theorem Kind.mem_all (kind : Kind) : kind ∈ Kind.all := by
  cases kind <;> decide

theorem Kind.pairwise_all : Kind.all.Pairwise fun left right => left.rank < right.rank := by
  decide

namespace Conformance

theorem DriftClass.eq_of_rank_eq {left right : DriftClass} (same : left.rank = right.rank) :
    left = right := by
  cases left <;> cases right <;> first | rfl | cases same

/-! ## What findings are listed by -/

/-- Kind, action, class, resource and path of a finding, of which the first that differs decides. -/
abbrev ListingKey := Nat ×ₗ String ×ₗ Nat ×ₗ WithBot String ×ₗ String

/-- A text that may be absent, absence before every text. -/
def absentFirst : Option String → WithBot String
  | none => ⊥
  | some text => text

def Finding.listingKey (finding : Finding) : ListingKey :=
  toLex (finding.family.kind.rank, toLex (finding.family.action, toLex (finding.driftClass.rank,
    toLex (absentFirst finding.family.resource, finding.verdict.path))))

theorem compareOptional_eq_lt_iff {left right : Option String} :
    compareOptional left right = .lt ↔ absentFirst left < absentFirst right := by
  cases left <;> cases right <;> simp [compareOptional, absentFirst, compare_lt_iff_lt]

theorem compareOptional_eq_eq_iff {left right : Option String} :
    compareOptional left right = .eq ↔ absentFirst left = absentFirst right := by
  cases left <;> cases right <;> simp [compareOptional, absentFirst]

namespace Finding

variable {left right : Finding}

theorem notAfter_iff : left.notAfter right = true ↔ left.listingKey ≤ right.listingKey := by
  simp only [notAfter_eq_isLE, order, listingKey, Ordering.isLE_then_iff_or, compare_lt_iff_lt,
    compare_eq_iff_eq, compareOptional_eq_lt_iff, compareOptional_eq_eq_iff,
    Std.LawfulBCmp.isLE_iff_le, Prod.Lex.toLex_le_toLex]

theorem rank_le_of_listingKey_le (below : left.listingKey ≤ right.listingKey) :
    left.family.kind.rank ≤ right.family.kind.rank := by
  rcases Prod.Lex.toLex_le_toLex.mp below with before | ⟨same, -⟩
  · exact before.le
  · exact same.le

theorem driftClass_eq_of_listingKey_eq (same : left.listingKey = right.listingKey) :
    left.driftClass = right.driftClass := by
  have ranks : left.driftClass.rank = right.driftClass.rank := by
    simp only [listingKey, EmbeddingLike.apply_eq_iff_eq, Prod.mk.injEq] at same
    exact same.2.2.1
  exact DriftClass.eq_of_rank_eq ranks

end Finding

/-! ## Findings that agree in their keys -/

/-- Two lists with the same findings of every class have the same findings with every key, since the
class is part of the key. -/
theorem filter_listingKey_congr {findings others : List Finding}
    (same : ∀ wanted, (findings.filter fun finding => finding.driftClass = wanted) =
      others.filter fun finding => finding.driftClass = wanted) (key : ListingKey) :
    (findings.filter fun finding => finding.listingKey = key) =
      others.filter fun finding => finding.listingKey = key := by
  by_cases found : ∃ finding : Finding, finding.listingKey = key
  · obtain ⟨sample, rfl⟩ := found
    have narrowed : ∀ items : List Finding,
        (items.filter fun finding => finding.listingKey = sample.listingKey) =
          (items.filter fun finding => finding.driftClass = sample.driftClass).filter
            fun finding => finding.listingKey = sample.listingKey := by
      intro items
      rw [List.filter_filter]
      refine List.filter_congr fun finding _ => ?_
      by_cases agree : finding.listingKey = sample.listingKey
      · simp [agree, Finding.driftClass_eq_of_listingKey_eq agree]
      · simp [agree]
    rw [narrowed findings, same, ← narrowed others]
  · have absent : ∀ items : List Finding,
        (items.filter fun finding => finding.listingKey = key) = [] := by
      intro items
      refine List.filter_eq_nil_iff.mpr fun finding _ agree => found ⟨finding, ?_⟩
      exact of_decide_eq_true agree
    rw [absent, absent]

/-- Sorting leaves findings that agree in their keys as they stand. -/
theorem filter_listingKey_mergeSort (findings : List Finding) (key : ListingKey) :
    ((findings.mergeSort Finding.notAfter).filter fun finding => finding.listingKey = key) =
      findings.filter fun finding => finding.listingKey = key := by
  rw [filter_mergeSort Finding.notAfter_trans Finding.notAfter_total]
  apply List.mergeSort_of_pairwise
  refine List.pairwise_of_forall_mem_list fun left leftMember right rightMember => ?_
  have leftKey := of_decide_eq_true (List.mem_filter.mp leftMember).2
  have rightKey := of_decide_eq_true (List.mem_filter.mp rightMember).2
  exact Finding.notAfter_iff.mpr (leftKey.trans rightKey.symm).le

/-! ## The drift in turn -/

/-- The findings of expected routes, route by route: a route is on another path if some observation
with its method and family is left, and else it is missing. -/
def findingsInTurn : List Route → List Observation → List Finding
  | [], _ => []
  | route :: routes, left =>
    match takeFirst? (sameFamily route) left with
    | some (observation, rest) =>
      expectedFinding route (.pathMismatch route.path observation.route.path) ::
        findingsInTurn routes rest
    | none => expectedFinding route (.missing route.path) :: findingsInTurn routes left

/-- The findings of the routes of a table that are not matched, in the order of the table. -/
def expectedDrift (table : RouteTable) (observed : List Route) : List Finding :=
  findingsInTurn (exactPairing table observed).unpaired (exactPairing table observed).left

theorem map_expectedEntry_findingsInTurn (routes : List Route) (left : List Observation) :
    (findingsInTurn routes left).map Finding.expectedEntry = routes.map expectedEntry := by
  induction routes generalizing left with
  | nil => rfl
  | cons route routes ih =>
      unfold findingsInTurn
      split <;> rw [List.map_cons, List.map_cons, ih] <;> rfl

/-- In turn, the findings of a class are those of the pairing. -/
theorem filter_findingsInTurn (routes : List Route) (left : List Observation)
    (wanted : DriftClass) :
    ((findingsInTurn routes left).filter fun finding => finding.driftClass = wanted) =
      match wanted with
      | .pathMismatch => (pairUp sameFamily routes left).pairs.map fun pair =>
          expectedFinding pair.1 (.pathMismatch pair.1.path pair.2.route.path)
      | .missing => (pairUp sameFamily routes left).unpaired.map fun route =>
          expectedFinding route (.missing route.path)
      | .matched | .extra => [] := by
  induction routes generalizing left with
  | nil => cases wanted <;> rfl
  | cons route routes ih =>
      cases taken : takeFirst? (sameFamily route) left with
      | some result =>
          obtain ⟨observation, rest⟩ := result
          rw [pairUp_cons_of_some taken]
          simp only [findingsInTurn, taken]
          cases wanted with
          | pathMismatch =>
              rw [List.filter_cons_of_pos rfl, ih rest]
              rfl
          | missing | matched | extra =>
              rw [List.filter_cons_of_neg Bool.false_ne_true, ih rest]
      | none =>
          rw [pairUp_cons_of_none taken]
          simp only [findingsInTurn, taken]
          cases wanted with
          | missing =>
              rw [List.filter_cons_of_pos rfl, ih left]
              rfl
          | pathMismatch | matched | extra =>
              rw [List.filter_cons_of_neg Bool.false_ne_true, ih left]

variable {table : RouteTable} {observed : List Route}

/-- In turn, the drift has the findings of the pairing, class by class. -/
theorem filter_drift_in_turn (wanted : DriftClass) :
    ((findingsOf table observed .pathMismatch ++ findingsOf table observed .missing ++
        findingsOf table observed .extra).filter fun finding => finding.driftClass = wanted) =
      (expectedDrift table observed ++ findingsOf table observed .extra).filter
        fun finding => finding.driftClass = wanted := by
  have expected := filter_findingsInTurn (exactPairing table observed).unpaired
    (exactPairing table observed).left wanted
  simp only [List.filter_append, filter_findingsOf, expectedDrift, expected]
  cases wanted <;> simp [findingsOf, movedPairing]

/-! ## The order of the table and that of observation -/

theorem expectedDrift_sublist (table : RouteTable) (observed : List Route) :
    ((expectedDrift table observed).map Finding.expectedEntry).Sublist
      (table.routes.map expectedEntry) := by
  rw [expectedDrift, map_expectedEntry_findingsInTurn]
  exact (pairUp_unpaired_sublist _ _ _).map _

theorem extra_sublist (table : RouteTable) (observed : List Route) :
    ((findingsOf table observed .extra).map Finding.observedEntry).Sublist
      (observed.map (observedEntry table)) := by
  have entries : (observations table observed).map (fun observation =>
      (observation.route.method, observation.family, some observation.route.path)) =
        observed.map (observedEntry table) := by
    rw [observations, List.map_map]
    rfl
  have left : (movedPairing table observed).left.Sublist (observations table observed) :=
    (pairUp_left_sublist _ _ _).trans (pairUp_left_sublist _ _ _)
  rw [findingsOf, List.map_map, ← entries]
  exact left.map _

/-! ## The lines of a report -/

/-- The family of a finding as its line shows it: kind, resource if there is one, and action. -/
def familyText (family : Family) : String :=
  match family.resource with
  | some resource => family.kind.text ++ "/" ++ resource ++ "/" ++ family.action
  | none => family.kind.text ++ "/" ++ family.action

/-- The line of a finding: its class, method and path, and its family in brackets. Where the path
diverges the observed one is beside the expected one, and the hint on how stands at the end. -/
def findingLine (finding : Finding) : String :=
  match finding.verdict with
  | .matched path =>
    "  matched " ++ finding.method.text ++ " " ++ path ++ "  [" ++ familyText finding.family ++ "]"
  | .missing expected =>
    "  missing " ++ finding.method.text ++ " " ++ expected ++ "  [" ++ familyText finding.family
      ++ "]"
  | .extra observed =>
    "  extra " ++ finding.method.text ++ " " ++ observed ++ "  [" ++ familyText finding.family
      ++ "]"
  | .pathMismatch expected observed =>
    "  pathMismatch " ++ finding.method.text ++ " " ++ expected ++ " (observed " ++ observed ++ ")"
      ++ "  [" ++ familyText finding.family ++ "]" ++ " " ++ (Hint.classify expected observed).text

/-- A finding that does not take one path for two. -/
def Finding.Diverges (finding : Finding) : Prop :=
  ∀ expected observed, finding.verdict = .pathMismatch expected observed → expected ≠ observed

theorem Finding.Diverges.line_eq {finding : Finding} (diverges : finding.Diverges) :
    "  " ++ finding.text = findingLine finding := by
  have family : finding.family.text = familyText finding.family := rfl
  unfold Finding.text Finding.pathText findingLine Finding.driftClass
  rw [family]
  cases found : finding.verdict with
  | pathMismatch expected observed =>
      simp only [if_neg (diverges expected observed found), Verdict.driftClass, DriftClass.text,
        Verdict.hint?, ← String.append_assoc, String.reduceAppend]
  | matched path | missing path | extra path =>
      simp only [Verdict.driftClass, DriftClass.text, Verdict.hint?, Verdict.path,
        String.append_empty, ← String.append_assoc, String.reduceAppend]

/-- Findings of drift on another path are on different paths. -/
theorem diverges_of_mem_drift {finding : Finding}
    (member : finding ∈ (check table observed).drift) : finding.Diverges := by
  intro expected shown verdict
  have inClass : finding ∈ (check table observed).ofClass .pathMismatch := by
    rw [ofClass_of_ne_matched (by decide)]
    exact List.mem_filter.mpr ⟨member, by rw [Finding.driftClass, verdict]; rfl⟩
  obtain ⟨pair, inPairs, rfl⟩ := List.mem_map.mp ((ofClass_perm .pathMismatch).mem_iff.mp inClass)
  cases verdict
  exact path_ne_of_mem_movedPairing inPairs

/-- The lines of a kind that drifts: its header, and a line for each of its findings. -/
def headedLines (kind : Kind) (findings : List Finding) : List String :=
  ("[" ++ kind.text ++ "]") :: findings.map findingLine

/-- The drift of a report that is of a kind. -/
def Report.driftOf (report : Report) (kind : Kind) : List Finding :=
  report.drift.filter fun finding => finding.family.kind = kind

theorem groupLines_append_of_kind {kind : Kind} {block : List Finding}
    (ofKind : ∀ finding ∈ block, finding.family.kind = kind ∧ finding.Diverges)
    (rest : List Finding) :
    Report.groupLines (some kind) (block ++ rest) =
      block.map findingLine ++ Report.groupLines (some kind) rest := by
  induction block with
  | nil => rfl
  | cons finding block ih =>
      obtain ⟨⟨first, diverges⟩, others⟩ := List.forall_mem_cons.mp ofKind
      rw [List.cons_append, Report.groupLines, first, if_pos rfl, ih others, List.map_cons,
        List.cons_append, diverges.line_eq]

/-- Findings of one kind behind those of another one get a header. -/
theorem groupLines_append_of_ne {current : Option Kind} {kind : Kind} {block : List Finding}
    (changes : current ≠ some kind) (nonempty : block ≠ [])
    (ofKind : ∀ finding ∈ block, finding.family.kind = kind ∧ finding.Diverges)
    (rest : List Finding) :
    Report.groupLines current (block ++ rest) =
      headedLines kind block ++ Report.groupLines (some kind) rest := by
  cases block with
  | nil => exact absurd rfl nonempty
  | cons finding block =>
      obtain ⟨⟨first, diverges⟩, others⟩ := List.forall_mem_cons.mp ofKind
      rw [List.cons_append, Report.groupLines, first, if_neg changes,
        groupLines_append_of_kind others, diverges.line_eq]
      rfl

/-- Findings that stand kind by kind get one header for each kind that has any. -/
theorem groupLines_flatMap {current : Option Kind} {kinds : List Kind}
    {block : Kind → List Finding} (distinct : kinds.Nodup)
    (fresh : ∀ kind ∈ kinds, current ≠ some kind)
    (ofKind : ∀ kind, ∀ finding ∈ block kind, finding.family.kind = kind ∧ finding.Diverges) :
    Report.groupLines current (kinds.flatMap block) =
      (kinds.filter fun kind => block kind ≠ []).flatMap fun kind =>
        headedLines kind (block kind) := by
  induction kinds generalizing current with
  | nil => rfl
  | cons kind kinds ih =>
      obtain ⟨notLater, later⟩ := List.nodup_cons.mp distinct
      obtain ⟨changes, freshLater⟩ := List.forall_mem_cons.mp fresh
      rw [List.flatMap_cons]
      by_cases empty : block kind = []
      · rw [empty, List.nil_append, ih later freshLater, List.filter_cons_of_neg (by simp [empty])]
      · have freshNext : ∀ other ∈ kinds, some kind ≠ some other := by
          intro other member same
          cases same
          exact notLater member
        rw [groupLines_append_of_ne changes empty (ofKind kind), ih later freshNext,
          List.filter_cons_of_pos (by simp [empty]), List.flatMap_cons]

/-! ## Findings kind by kind -/

/-- A list in the order of its keys begins with the members that have the least key. -/
theorem eq_filter_append_filter {α κ : Type} [DecidableEq κ] {key : α → κ} {rank : κ → Nat}
    {least : κ} {items : List α}
    (above : ∀ item ∈ items, key item ≠ least → rank least < rank (key item))
    (sorted : items.Pairwise fun left right => rank (key left) ≤ rank (key right)) :
    items = (items.filter fun item => key item = least) ++
      items.filter fun item => key item ≠ least := by
  induction items with
  | nil => rfl
  | cons item items ih =>
      obtain ⟨below, later⟩ := List.pairwise_cons.mp sorted
      obtain ⟨aboveFirst, aboveLater⟩ := List.forall_mem_cons.mp above
      by_cases same : key item = least
      · rw [List.filter_cons_of_pos (by simp [same]), List.filter_cons_of_neg (by simp [same]),
          List.cons_append, ← ih aboveLater later]
      · have apart : ∀ other ∈ item :: items, key other ≠ least := by
          intro other member equal
          have beyond := aboveFirst same
          rcases List.mem_cons.mp member with rfl | inItems
          · exact same equal
          · have rises := below other inItems
            rw [equal] at rises
            omega
        rw [List.filter_eq_nil_iff.mpr (by simpa using apart), List.nil_append,
          List.filter_eq_self.mpr (by simpa using apart)]

/-- A list in the order of its keys is, key by key, the members that have the key. -/
theorem eq_flatMap_filter {α κ : Type} [DecidableEq κ] {key : α → κ} {rank : κ → Nat}
    {keys : List κ} {items : List α}
    (ascending : keys.Pairwise fun left right => rank left < rank right)
    (covered : ∀ item ∈ items, key item ∈ keys)
    (sorted : items.Pairwise fun left right => rank (key left) ≤ rank (key right)) :
    items = keys.flatMap fun wanted => items.filter fun item => key item = wanted := by
  induction keys generalizing items with
  | nil => exact List.eq_nil_iff_forall_not_mem.mpr fun item member => nomatch covered item member
  | cons least keys ih =>
      obtain ⟨below, later⟩ := List.pairwise_cons.mp ascending
      have above : ∀ item ∈ items, key item ≠ least → rank least < rank (key item) := by
        intro item member apart
        exact below _ ((List.mem_cons.mp (covered item member)).resolve_left apart)
      have rest := ih later (Places.key_mem_of_mem_filter_ne covered) (sorted.filter _)
      have kept : ∀ wanted ∈ keys, ((items.filter fun item => key item ≠ least).filter
          fun item => key item = wanted) = items.filter fun item => key item = wanted :=
        fun wanted member =>
          Places.filter_filter_key_ne fun same => (below wanted member).ne (congrArg rank same.symm)
      rw [List.flatMap_cons, ← List.flatMap_congr kept, ← rest]
      exact eq_filter_append_filter above sorted

/-! ## Reports as they are listed -/

/-- The summary counts the findings of each class. -/
theorem count_eq_length_ofClass (table : RouteTable) (observed : List Route)
    (wanted : DriftClass) : (check table observed).count wanted =
      ((check table observed).ofClass wanted).length := by
  by_cases isMatched : wanted = .matched
  · subst isMatched
    rw [ofClass_matched]
    rfl
  · rw [ofClass_of_ne_matched isMatched]
    cases wanted with
    | matched => exact absurd rfl isMatched
    | missing | extra | pathMismatch => rfl

theorem ascending_drift (table : RouteTable) (observed : List Route) :
    (check table observed).drift.Pairwise fun left right => left.listingKey ≤ right.listingKey := by
  have sorted := List.pairwise_mergeSort Finding.notAfter_trans Finding.notAfter_total
    (findingsOf table observed .pathMismatch ++ findingsOf table observed .missing ++
      findingsOf table observed .extra)
  exact sorted.imp Finding.notAfter_iff.mp

theorem groupLines_drift (table : RouteTable) (observed : List Route) :
    Report.groupLines none (check table observed).drift =
      (Kind.all.filter fun kind => (check table observed).driftOf kind ≠ []).flatMap fun kind =>
        headedLines kind ((check table observed).driftOf kind) := by
  have byKind : (check table observed).drift =
      Kind.all.flatMap (check table observed).driftOf :=
    eq_flatMap_filter Kind.pairwise_all (fun finding _ => finding.family.kind.mem_all)
      ((ascending_drift table observed).imp Finding.rank_le_of_listingKey_le)
  have distinct : Kind.all.Nodup :=
    Kind.pairwise_all.imp fun below same => below.ne (congrArg Kind.rank same)
  have ofKind : ∀ kind, ∀ finding ∈ (check table observed).driftOf kind,
      finding.family.kind = kind ∧ finding.Diverges := by
    intro kind finding member
    obtain ⟨inDrift, same⟩ := List.mem_filter.mp member
    exact ⟨of_decide_eq_true same, diverges_of_mem_drift inDrift⟩
  have lines : Report.groupLines none (Kind.all.flatMap (check table observed).driftOf) = _ :=
    groupLines_flatMap distinct (fun _ _ => nofun) ofKind
  rw [← byKind] at lines
  exact lines

/-- A report that lists its drift in order, and renders it so. -/
structure Lists (table : RouteTable) (observed : List Route) (report : Report) : Prop where
  ascending : report.drift.Pairwise fun left right => left.listingKey ≤ right.listingKey
  inTurn : ∀ key, (report.drift.filter fun finding => finding.listingKey = key) =
    (expectedDrift table observed ++ findingsOf table observed .extra).filter
      fun finding => finding.listingKey = key
  tableOrder : ((expectedDrift table observed).map Finding.expectedEntry).Sublist
    (table.routes.map expectedEntry)
  observedOrder : ((findingsOf table observed .extra).map Finding.observedEntry).Sublist
    (observed.map (observedEntry table))
  text : report.text = String.join (
    ((table.moduleId ++ ": " ++ toString (report.ofClass .matched).length ++ " matched, "
        ++ toString (report.ofClass .missing).length ++ " missing, "
        ++ toString (report.ofClass .extra).length ++ " extra, "
        ++ toString (report.ofClass .pathMismatch).length ++ " path mismatch") ::
      (Kind.all.filter fun kind => report.driftOf kind ≠ []).flatMap fun kind =>
        headedLines kind (report.driftOf kind)).map (· ++ "\n"))

/-- **Listing.** Whatever is observed, the drift of a report ascends by kind, action, class,
resource and path. Findings that agree in all of these stand as the routes of the table that are not
matched do, and behind them the extra ones as they were observed. In the text the line that counts
the four classes comes first, and then, in the order of the kinds, one header for each kind that
drifts with just the findings of that kind behind it, in the order of the drift. The line of a
finding shows its class, method, path and family, and both paths with a hint where they differ. -/
theorem check_lists (table : RouteTable) (observed : List Route) :
    Lists table observed (check table observed) where
  ascending := ascending_drift table observed
  inTurn := by
    intro key
    have sorted := filter_listingKey_mergeSort (findingsOf table observed .pathMismatch ++
      findingsOf table observed .missing ++ findingsOf table observed .extra) key
    exact sorted.trans (filter_listingKey_congr filter_drift_in_turn key)
  tableOrder := expectedDrift_sublist table observed
  observedOrder := extra_sublist table observed
  text := by
    rw [Report.text, Report.lines, groupLines_drift, Report.summary]
    simp only [count_eq_length_ofClass]
    rfl

end Conformance

end ModuleRoutes
