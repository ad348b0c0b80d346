import Mathlib.Data.List.Nodup
import Mathlib.Data.List.Perm.Basic
import ModuleRoutes.Conformance.Check

/-!
# Pairing without remainder

Pairing uses every expected route and every observation once, and stops only when nothing that is
left fits (`ModuleRoutes.Conformance.pairUp_exhausts`). Where fitting is agreement in a key, it
therefore makes as many pairs with a key as both sides allow
(`ModuleRoutes.Conformance.Exhausts.count_pairs`), and the order of the observations makes no
difference to which routes are paired (`ModuleRoutes.Conformance.pairUp_of_keys`).
-/

namespace ModuleRoutes

namespace Conformance

variable {α : Type} {p : α → Bool} {items rest : List α} {found : α}

theorem takeFirst?_eq_none_iff : takeFirst? p items = none ↔ ∀ item ∈ items, p item = false := by
  induction items with
  | nil => simp [takeFirst?]
  | cons item items ih =>
      rw [takeFirst?, List.forall_mem_cons]
      by_cases first : p item = true
      · simp [first]
      · simp [first, ih]

/-- What is taken is of the kind, and what stands before and behind it stays. -/
theorem takeFirst?_eq_some (taken : takeFirst? p items = some (found, rest)) :
    p found = true ∧ ∃ before after, items = before ++ found :: after ∧ rest = before ++ after := by
  induction items generalizing rest with
  | nil => cases taken
  | cons item items ih =>
      rw [takeFirst?] at taken
      by_cases first : p item = true
      · rw [if_pos first] at taken
        cases taken
        exact ⟨first, [], items, rfl, rfl⟩
      · rw [if_neg first] at taken
        obtain ⟨⟨other, later⟩, inItems, same⟩ := Option.map_eq_some_iff.mp taken
        cases same
        obtain ⟨fits, before, after, whole, others⟩ := ih inItems
        exact ⟨fits, item :: before, after, congrArg (item :: ·) whole, congrArg (item :: ·) others⟩

/-- What is taken is of the kind, and all other members stay. -/
theorem takeFirst?_spec (taken : takeFirst? p items = some (found, rest)) :
    p found = true ∧ (found :: rest).Perm items := by
  obtain ⟨fits, before, after, rfl, rfl⟩ := takeFirst?_eq_some taken
  exact ⟨fits, List.perm_middle.symm⟩

theorem takeFirst?_sublist (taken : takeFirst? p items = some (found, rest)) :
    rest.Sublist items := by
  obtain ⟨-, before, after, rfl, rfl⟩ := takeFirst?_eq_some taken
  exact (List.sublist_cons_self found after).append_left before

/-- A pairing of expected routes with observations that fit, which leaves no two that do. -/
structure Exhausts (fits : Route → Observation → Bool) (routes : List Route)
    (left : List Observation) (pairing : Pairing) : Prop where
  fitting : ∀ pair ∈ pairing.pairs, fits pair.1 pair.2 = true
  expected : (pairing.pairs.map Prod.fst ++ pairing.unpaired).Perm routes
  observed : (pairing.pairs.map Prod.snd ++ pairing.left).Perm left
  exhausted : ∀ route ∈ pairing.unpaired, ∀ observation ∈ pairing.left,
    fits route observation = false

variable {fits : Route → Observation → Bool} {routes : List Route} {left : List Observation}
  {pairing : Pairing}

theorem pairUp_cons_of_some {route : Route} {observation : Observation}
    {remaining : List Observation}
    (taken : takeFirst? (fits route) left = some (observation, remaining)) :
    pairUp fits (route :: routes) left =
      { pairUp fits routes remaining with
        pairs := (route, observation) :: (pairUp fits routes remaining).pairs } := by
  rw [pairUp, taken]

theorem pairUp_cons_of_none {route : Route} (taken : takeFirst? (fits route) left = none) :
    pairUp fits (route :: routes) left =
      { pairUp fits routes left with unpaired := route :: (pairUp fits routes left).unpaired } := by
  rw [pairUp, taken]

/-- Pairing each expected route with the first fitting observation leaves no two that fit. -/
theorem pairUp_exhausts (fits : Route → Observation → Bool) (routes : List Route)
    (left : List Observation) : Exhausts fits routes left (pairUp fits routes left) := by
  induction routes generalizing left with
  | nil => exact ⟨by simp [pairUp], by simp [pairUp], by simp [pairUp], by simp [pairUp]⟩
  | cons route routes ih =>
      cases taken : takeFirst? (fits route) left with
      | none =>
          rw [pairUp_cons_of_none taken]
          have later := ih left
          refine ⟨later.fitting, ?_, later.observed, List.forall_mem_cons.mpr ⟨?_, later.exhausted⟩⟩
          · exact List.perm_middle.trans (later.expected.cons route)
          · -- Nothing fitted among the observations then left, and these only become fewer.
            intro observation member
            exact takeFirst?_eq_none_iff.mp taken observation
              (later.observed.mem_iff.mp (List.mem_append_right _ member))
      | some result =>
          obtain ⟨observation, remaining⟩ := result
          obtain ⟨fit, order⟩ := takeFirst?_spec taken
          rw [pairUp_cons_of_some taken]
          have later := ih remaining
          exact ⟨List.forall_mem_cons.mpr ⟨fit, later.fitting⟩, later.expected.cons route,
            (later.observed.cons observation).trans order, later.exhausted⟩

/-! ## Counting by keys -/

namespace Exhausts

variable {κ : Type} [BEq κ] {key : Route → κ} {observedKey : Observation → κ}

theorem count_expected (exhausts : Exhausts fits routes left pairing) (key : Route → κ)
    (wanted : κ) :
    (routes.map key).count wanted =
      (pairing.pairs.map fun pair => key pair.1).count wanted +
        (pairing.unpaired.map key).count wanted := by
  rw [← (exhausts.expected.map key).count_eq, List.map_append, List.count_append, List.map_map]
  rfl

theorem count_observed (exhausts : Exhausts fits routes left pairing)
    (agree : ∀ route observation,
      fits route observation = true → key route = observedKey observation)
    (wanted : κ) :
    (left.map observedKey).count wanted =
      (pairing.pairs.map fun pair => key pair.1).count wanted +
        (pairing.left.map observedKey).count wanted := by
  have keys : (pairing.pairs.map fun pair => key pair.1) =
      (pairing.pairs.map Prod.snd).map observedKey := by
    rw [List.map_map]
    exact List.map_congr_left fun pair member => agree _ _ (exhausts.fitting pair member)
  rw [← (exhausts.observed.map observedKey).count_eq, List.map_append, List.count_append, keys]

/-- Where fitting is agreement in a key, there are as many pairs with a key as both sides allow. -/
theorem count_pairs [LawfulBEq κ] (exhausts : Exhausts fits routes left pairing)
    (keyed : ∀ route observation,
      fits route observation = true ↔ key route = observedKey observation) (wanted : κ) :
    (pairing.pairs.map fun pair => key pair.1).count wanted =
      min ((routes.map key).count wanted) ((left.map observedKey).count wanted) := by
  have inRoutes := exhausts.count_expected key wanted
  have inLeft := exhausts.count_observed
    (fun route observation => (keyed route observation).mp) wanted
  -- A route and an observation left over with this key would fit each other.
  have oneSided : (pairing.unpaired.map key).count wanted = 0 ∨
      (pairing.left.map observedKey).count wanted = 0 := by
    rw [List.count_eq_zero, List.count_eq_zero]
    by_contra both
    rw [not_or, not_not, not_not] at both
    obtain ⟨route, unpaired, atRoute⟩ := List.mem_map.mp both.1
    obtain ⟨observation, inLeft, atObservation⟩ := List.mem_map.mp both.2
    have fit := (keyed route observation).mpr (atRoute.trans atObservation.symm)
    rw [exhausts.exhausted route unpaired observation inLeft] at fit
    cases fit
  omega

end Exhausts

/-! ## Observations in another order -/

/-- An observation is taken from two lists with the same keys, or from neither; the keys of what is
left are the same again. -/
theorem takeFirst?_of_keys {fits : Observation → Bool} {κ : Type} {observedKey : Observation → κ}
    {wanted : κ} {left other : List Observation}
    (keyed : ∀ observation, fits observation = true ↔ wanted = observedKey observation)
    (same : (left.map observedKey).Perm (other.map observedKey)) :
    (takeFirst? fits left = none ∧ takeFirst? fits other = none) ∨
      ∃ observation rest partner otherRest, takeFirst? fits left = some (observation, rest) ∧
        takeFirst? fits other = some (partner, otherRest) ∧
        (rest.map observedKey).Perm (otherRest.map observedKey) := by
  have absent : ∀ observations : List Observation,
      takeFirst? fits observations = none ↔ wanted ∉ observations.map observedKey := by
    intro observations
    rw [takeFirst?_eq_none_iff, List.mem_map, not_exists]
    refine forall_congr' fun observation => ?_
    rw [not_and, ← Bool.not_eq_true, keyed, eq_comm]
  have both : takeFirst? fits left = none ↔ takeFirst? fits other = none := by
    rw [absent, absent, same.mem_iff]
  cases taken : takeFirst? fits left with
  | none => exact .inl ⟨rfl, both.mp taken⟩
  | some result =>
      obtain ⟨observation, rest⟩ := result
      cases otherTaken : takeFirst? fits other with
      | none =>
          rw [both.mpr otherTaken] at taken
          cases taken
      | some otherResult =>
          obtain ⟨partner, otherRest⟩ := otherResult
          obtain ⟨fit, order⟩ := takeFirst?_spec taken
          obtain ⟨otherFit, otherOrder⟩ := takeFirst?_spec otherTaken
          refine .inr ⟨observation, rest, partner, otherRest, rfl, rfl, ?_⟩
          have keys := ((order.map observedKey).trans same).trans (otherOrder.map observedKey).symm
          rw [List.map_cons, List.map_cons, ← (keyed observation).mp fit,
            ← (keyed partner).mp otherFit] at keys
          exact keys.cons_inv

variable {fits : Route → Observation → Bool} {κ : Type} {key : Route → κ}
  {observedKey : Observation → κ}

/-- Where fitting is agreement in a key, it depends on the keys of the observations alone which
routes are paired and which keys are left. -/
theorem pairUp_of_keys
    (keyed : ∀ route observation,
      fits route observation = true ↔ key route = observedKey observation)
    (routes : List Route) {left other : List Observation}
    (same : (left.map observedKey).Perm (other.map observedKey)) :
    (pairUp fits routes left).pairs.map Prod.fst = (pairUp fits routes other).pairs.map Prod.fst ∧
      (pairUp fits routes left).unpaired = (pairUp fits routes other).unpaired ∧
      ((pairUp fits routes left).left.map observedKey).Perm
        ((pairUp fits routes other).left.map observedKey) := by
  induction routes generalizing left other with
  | nil => exact ⟨rfl, rfl, same⟩
  | cons route routes ih =>
      rcases takeFirst?_of_keys (keyed route) same with
        ⟨none, otherNone⟩ | ⟨observation, rest, partner, otherRest, taken, otherTaken, later⟩
      · obtain ⟨pairs, unpaired, keys⟩ := ih same
        rw [pairUp_cons_of_none none, pairUp_cons_of_none otherNone]
        exact ⟨pairs, congrArg (route :: ·) unpaired, keys⟩
      · obtain ⟨pairs, unpaired, keys⟩ := ih later
        rw [pairUp_cons_of_some taken, pairUp_cons_of_some otherTaken]
        exact ⟨congrArg (route :: ·) pairs, unpaired, keys⟩

/-- Where no two observations share a key, it depends on the entries of the observations alone which
entries are paired with which routes and which are left, if the entry of an observation tells its
key. -/
theorem pairUp_of_entries {ι : Type} {entry : Observation → ι} {keyOf : ι → κ}
    (keyed : ∀ route observation,
      fits route observation = true ↔ key route = keyOf (entry observation))
    (routes : List Route) {left other : List Observation}
    (distinct : (left.map fun observation => keyOf (entry observation)).Nodup)
    (same : (left.map entry).Perm (other.map entry)) :
    (pairUp fits routes left).pairs.map (Prod.map id entry) =
        (pairUp fits routes other).pairs.map (Prod.map id entry) ∧
      ((pairUp fits routes left).left.map entry).Perm
        ((pairUp fits routes other).left.map entry) := by
  induction routes generalizing left other with
  | nil => exact ⟨rfl, same⟩
  | cons route routes ih =>
      have keys : (left.map fun observation => keyOf (entry observation)).Perm
          (other.map fun observation => keyOf (entry observation)) := by
        have mapped := same.map keyOf
        rwa [List.map_map, List.map_map] at mapped
      rcases takeFirst?_of_keys (keyed route) keys with
        ⟨none, otherNone⟩ | ⟨observation, rest, partner, otherRest, taken, otherTaken, -⟩
      · rw [pairUp_cons_of_none none, pairUp_cons_of_none otherNone]
        exact ih distinct same
      · obtain ⟨fit, order⟩ := takeFirst?_spec taken
        obtain ⟨otherFit, otherOrder⟩ := takeFirst?_spec otherTaken
        -- Both lists give the one entry that has the key of the route.
        have agree : entry observation = entry partner := by
          have inOther : entry partner ∈ other.map entry :=
            List.mem_map_of_mem (otherOrder.mem_iff.mp List.mem_cons_self)
          obtain ⟨twin, inLeft, twinEntry⟩ := List.mem_map.mp (same.mem_iff.mpr inOther)
          have twinKey : keyOf (entry twin) = keyOf (entry observation) := by
            rw [twinEntry, ← (keyed route partner).mp otherFit,
              (keyed route observation).mp fit]
          have one := List.inj_on_of_nodup_map distinct inLeft
            (order.mem_iff.mp List.mem_cons_self) twinKey
          rw [← one, twinEntry]
        have later : (rest.map entry).Perm (otherRest.map entry) := by
          have entries := ((order.map entry).trans same).trans (otherOrder.map entry).symm
          rw [List.map_cons, List.map_cons, agree] at entries
          exact entries.cons_inv
        have laterDistinct : (rest.map fun observation => keyOf (entry observation)).Nodup :=
          (List.nodup_cons.mp ((order.map _).nodup_iff.mpr distinct)).2
        obtain ⟨pairs, entries⟩ := ih laterDistinct later
        rw [pairUp_cons_of_some taken, pairUp_cons_of_some otherTaken, List.map_cons, List.map_cons,
          Prod.map_apply, Prod.map_apply, agree, pairs]
        exact ⟨rfl, entries⟩

end Conformance

end ModuleRoutes
