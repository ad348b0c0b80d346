import Mathlib.Data.List.TFAE
import Mathlib.Tactic.TFAE
import ModuleRoutes.Conformance.Hint
import ModuleRoutes.Proofs.Compiler.Layout

/-!
# What hints say

A hint is found by the place of the first parameter and by the literals of both paths. It says what
it means whenever the observed path has one parameter only: then `paramName` says that both paths
have one shape, and `idAfterAction` that the observed path has its parameter at a later place
between the same literals (`ModuleRoutes.Conformance.classify_tfae_of_compile`). Parameters behind
the first one are not looked at (`ModuleRoutes.Conformance.classify_ignores_later_parameters`).
-/

namespace ModuleRoutes

namespace Conformance

/-! ## Shapes -/

/-- Two segments in one place of two paths: parameters, or the same literal. -/
def Agree (expected observed : String) : Prop :=
  isParameter expected = isParameter observed ∧ (isParameter expected = false → expected = observed)

/-- Two paths with parameters in the same places and the same literals in all others. -/
def SameShape (expected observed : List String) : Prop := List.Forall₂ Agree expected observed

def IsParameterAt (parts : List String) (place : Nat) : Prop :=
  ∃ part, parts[place]? = some part ∧ isParameter part = true

/-- A path whose only parameter has moved back between the literals of another path. -/
structure IsShifted (expected observed : List String) : Prop where
  single : observed.countP isParameter = 1
  same : literals observed = literals expected
  later : ∃ place next, place < next ∧ IsParameterAt expected place ∧ IsParameterAt observed next

/-- A list of segments cut at its first parameter. -/
structure CutAtParameter (parts front : List String) (item : String) (back : List String) :
    Prop where
  whole : parts = front ++ item :: back
  front_literal : ∀ part ∈ front, isParameter part = false
  parameter : isParameter item = true

variable {parts front back : List String} {item : String} {place : Nat}

theorem literals_eq_self (literal : ∀ part ∈ parts, isParameter part = false) :
    literals parts = parts :=
  List.filter_eq_self.mpr fun part member => by rw [literal part member]; rfl

theorem exists_cutAtParameter (first : parts.findIdx? isParameter = some place) :
    ∃ front item back, CutAtParameter parts front item back ∧ front.length = place := by
  obtain ⟨inside, parameter, before⟩ := List.findIdx?_eq_some_iff_getElem.mp first
  refine ⟨parts.take place, parts[place], parts.drop (place + 1), ⟨?_, ?_, parameter⟩, ?_⟩
  · rw [List.getElem_cons_drop, List.take_append_drop]
  · intro part member
    obtain ⟨index, bound, rfl⟩ := List.getElem_of_mem member
    rw [List.length_take, Nat.lt_min] at bound
    rw [List.getElem_take]
    exact Bool.eq_false_iff.mpr (before index bound.1)
  · exact List.length_take_of_le (Nat.le_of_lt inside)

namespace CutAtParameter

theorem findIdx? (cut : CutAtParameter parts front item back) :
    parts.findIdx? isParameter = some front.length := by
  have none : front.findIdx? isParameter = none := List.findIdx?_eq_none_iff.mpr cut.front_literal
  rw [cut.whole, List.findIdx?_append, none, List.findIdx?_cons, if_pos cut.parameter]
  simp

theorem literals_eq (cut : CutAtParameter parts front item back) :
    literals parts = front ++ literals back := by
  have skipped : literals (item :: back) = literals back :=
    List.filter_cons_of_neg (by rw [cut.parameter]; decide)
  rw [cut.whole, literals, List.filter_append]
  exact congrArg₂ (· ++ ·) (literals_eq_self cut.front_literal) skipped

theorem countP_eq (cut : CutAtParameter parts front item back) :
    parts.countP isParameter = back.countP isParameter + 1 := by
  have none : front.countP isParameter = 0 :=
    List.countP_eq_zero.mpr fun part member => by simp [cut.front_literal part member]
  rw [cut.whole, List.countP_append, none, List.countP_cons_of_pos cut.parameter, Nat.zero_add]

theorem isParameterAt (cut : CutAtParameter parts front item back) :
    IsParameterAt parts front.length := by
  refine ⟨item, ?_, cut.parameter⟩
  rw [cut.whole, List.getElem?_append_right (Nat.le_refl _), Nat.sub_self, List.getElem?_cons_zero]

theorem back_literal (cut : CutAtParameter parts front item back)
    (single : parts.countP isParameter = 1) : ∀ part ∈ back, isParameter part = false := by
  rw [cut.countP_eq, Nat.add_eq_right, List.countP_eq_zero] at single
  exact fun part member => Bool.eq_false_iff.mpr (single part member)

/-- Where there is one parameter only, it is the one at which the segments are cut. -/
theorem eq_of_isParameterAt (cut : CutAtParameter parts front item back)
    (single : parts.countP isParameter = 1) (parameter : IsParameterAt parts place) :
    place = front.length := by
  obtain ⟨part, found, parameter⟩ := parameter
  rw [cut.whole, List.getElem?_append] at found
  split at found
  · rw [cut.front_literal part (List.mem_of_getElem? found)] at parameter
    cases parameter
  · next beyond =>
    cases behind : place - front.length with
    | zero => omega
    | succ index =>
        rw [behind, List.getElem?_cons_succ] at found
        rw [cut.back_literal single part (List.mem_of_getElem? found)] at parameter
        cases parameter

end CutAtParameter

theorem isParameterAt_of_findIdx? (first : parts.findIdx? isParameter = some place) :
    IsParameterAt parts place := by
  obtain ⟨front, item, back, cut, rfl⟩ := exists_cutAtParameter first
  exact cut.isParameterAt

theorem exists_findIdx?_of_isParameterAt (parameter : IsParameterAt parts place) :
    ∃ first, parts.findIdx? isParameter = some first := by
  obtain ⟨part, found, parameter⟩ := parameter
  rw [← Option.isSome_iff_exists, List.findIdx?_isSome, List.any_eq_true]
  exact ⟨part, List.mem_of_getElem? found, parameter⟩

theorem findIdx?_of_isParameterAt (single : parts.countP isParameter = 1)
    (parameter : IsParameterAt parts place) : parts.findIdx? isParameter = some place := by
  obtain ⟨first, found⟩ := exists_findIdx?_of_isParameterAt parameter
  obtain ⟨front, item, back, cut, rfl⟩ := exists_cutAtParameter found
  rw [found, cut.eq_of_isParameterAt single parameter]

/-! ## Paths of one shape -/

variable {expected observed : List String}

theorem SameShape.literals_eq (shape : SameShape expected observed) :
    literals expected = literals observed := by
  induction shape with
  | nil => rfl
  | @cons first other _ _ agree _ ih =>
      obtain ⟨kind, same⟩ := agree
      cases parameter : isParameter first with
      | true =>
          rw [literals, literals, List.filter_cons_of_neg (by simp [parameter]),
            List.filter_cons_of_neg (by simp [← kind, parameter])]
          exact ih
      | false =>
          rw [literals, literals, List.filter_cons_of_pos (by simp [parameter]),
            List.filter_cons_of_pos (by simp [← kind, parameter]), same parameter]
          exact congrArg _ ih

theorem SameShape.map_isParameter (shape : SameShape expected observed) :
    expected.map isParameter = observed.map isParameter := by
  induction shape with
  | nil => rfl
  | cons agree _ ih => rw [List.map_cons, List.map_cons, agree.1, ih]

theorem SameShape.countP_eq (shape : SameShape expected observed) :
    expected.countP isParameter = observed.countP isParameter := by
  have same := congrArg (List.countP id) shape.map_isParameter
  rwa [List.countP_map, List.countP_map] at same

theorem SameShape.findIdx?_eq (shape : SameShape expected observed) :
    expected.findIdx? isParameter = observed.findIdx? isParameter := by
  have same := congrArg (List.findIdx? id) shape.map_isParameter
  rwa [List.findIdx?_map, List.findIdx?_map] at same

/-- Paths with one parameter each, in one place and between the same literals, have one shape. -/
theorem sameShape_of_literals_eq {place : Nat}
    (expectedFirst : expected.findIdx? isParameter = some place)
    (observedFirst : observed.findIdx? isParameter = some place)
    (same : literals expected = literals observed)
    (expectedSingle : expected.countP isParameter = 1)
    (observedSingle : observed.countP isParameter = 1) : SameShape expected observed := by
  obtain ⟨front, item, back, cut, rfl⟩ := exists_cutAtParameter expectedFirst
  obtain ⟨otherFront, otherItem, otherBack, otherCut, length⟩ := exists_cutAtParameter observedFirst
  have backLiteral := cut.back_literal expectedSingle
  have otherLiteral := otherCut.back_literal observedSingle
  rw [cut.literals_eq, otherCut.literals_eq, literals_eq_self backLiteral,
    literals_eq_self otherLiteral] at same
  obtain ⟨rfl, rfl⟩ := List.append_inj same length.symm
  have itself : ∀ parts : List String, SameShape parts parts :=
    fun parts => List.forall₂_same.mpr fun part _ => ⟨rfl, fun _ => rfl⟩
  have items : Agree item otherItem :=
    ⟨cut.parameter.trans otherCut.parameter.symm,
      fun literal => absurd cut.parameter (by simp [literal])⟩
  rw [cut.whole, otherCut.whole]
  exact List.rel_append (itself front) (.cons items (itself back))

/-! ## Classification -/

/-- The segment `detail` is a literal, so that it is in both paths or in none when both have the
same literals. -/
theorem detail_mem_iff {parts : List String} : "detail" ∈ parts ↔ "detail" ∈ literals parts := by
  rw [literals, List.mem_filter]
  exact (and_iff_left (by decide)).symm

variable {path seen : String}

/-- Between the same literals the hint goes by the places of the first parameters. -/
theorem classify_of_literals_eq {place next : Nat}
    (expectedFirst : (pathSegments path).findIdx? isParameter = some place)
    (observedFirst : (pathSegments seen).findIdx? isParameter = some next)
    (same : literals (pathSegments path) = literals (pathSegments seen)) :
    Hint.classify path seen =
      if place < next then .idAfterAction else if next = place then .paramName else .other := by
  have detail : ("detail" ∈ pathSegments path) = ("detail" ∈ pathSegments seen) := by
    rw [detail_mem_iff, same, ← detail_mem_iff]
  rw [Hint.classify]
  simp only [detail, expectedFirst, observedFirst, same, ne_eq, not_true_eq_false, if_false]

/-- A hint about the place or the name of a parameter is given only between the same literals. -/
theorem literals_eq_of_classify
    (hinted : Hint.classify path seen = .paramName ∨ Hint.classify path seen = .idAfterAction) :
    literals (pathSegments path) = literals (pathSegments seen) ∧
      ∃ place next, (pathSegments path).findIdx? isParameter = some place ∧
        (pathSegments seen).findIdx? isParameter = some next := by
  rw [Hint.classify] at hinted
  split at hinted
  · rcases hinted with hint | hint <;> cases hint
  · split at hinted
    · next place next expectedFirst observedFirst =>
      refine ⟨?_, place, next, expectedFirst, observedFirst⟩
      by_contra different
      rw [if_pos different] at hinted
      rcases hinted with hint | hint <;> cases hint
    all_goals rcases hinted with hint | hint <;> cases hint

theorem classify_eq_paramName_iff :
    Hint.classify path seen = .paramName ↔
      literals (pathSegments path) = literals (pathSegments seen) ∧
        ∃ place, (pathSegments path).findIdx? isParameter = some place ∧
          (pathSegments seen).findIdx? isParameter = some place := by
  constructor
  · intro hint
    obtain ⟨same, place, next, expectedFirst, observedFirst⟩ := literals_eq_of_classify (.inl hint)
    rw [classify_of_literals_eq expectedFirst observedFirst same] at hint
    have equal : next = place := by
      by_contra different
      rw [if_neg different] at hint
      split at hint <;> cases hint
    exact ⟨same, place, expectedFirst, equal ▸ observedFirst⟩
  · rintro ⟨same, place, expectedFirst, observedFirst⟩
    rw [classify_of_literals_eq expectedFirst observedFirst same, if_neg (Nat.lt_irrefl place),
      if_pos rfl]

theorem classify_eq_idAfterAction_iff :
    Hint.classify path seen = .idAfterAction ↔
      literals (pathSegments path) = literals (pathSegments seen) ∧
        ∃ place next, place < next ∧ (pathSegments path).findIdx? isParameter = some place ∧
          (pathSegments seen).findIdx? isParameter = some next := by
  constructor
  · intro hint
    obtain ⟨same, place, next, expectedFirst, observedFirst⟩ := literals_eq_of_classify (.inr hint)
    rw [classify_of_literals_eq expectedFirst observedFirst same] at hint
    have later : place < next := by
      by_contra notLater
      rw [if_neg notLater] at hint
      split at hint <;> cases hint
    exact ⟨same, place, next, later, expectedFirst, observedFirst⟩
  · rintro ⟨same, place, next, later, expectedFirst, observedFirst⟩
    rw [classify_of_literals_eq expectedFirst observedFirst same, if_pos later]

/-! ## Paths of tables -/

theorem isParameter_of_isToken {segment : String} (isToken : Name.IsToken segment) :
    isParameter segment = false := by
  unfold isParameter
  have noMark : ∀ c ∈ segment.toList, c ≠ ':' ∧ c ≠ '\x7b' := by
    intro c member
    have plain := isToken.mem_toList member
    constructor <;> rintro rfl <;> exact absurd plain (by decide)
  split
  · next colon => exact absurd rfl (noMark ':' (colon ▸ List.mem_cons_self)).1
  · next brace => exact absurd rfl (noMark '\x7b' (brace ▸ List.mem_cons_self)).2
  · rfl

variable {route : Route}

/-- Of the segments of a path that a module is served on, only an item is a parameter. -/
theorem isParameter_eq {path segment : String}
    (tokens : ∀ segment ∈ Text.segments '/' path, segment ≠ ":id" → Name.IsToken segment)
    (member : segment ∈ Text.segments '/' path) : isParameter segment = (segment == ":id") := by
  by_cases item : segment = ":id"
  · subst item
    decide
  · rw [isParameter_of_isToken (tokens segment member item), eq_comm, beq_eq_false_iff_ne]
    exact item

theorem any_isParameter_eq {path : String}
    (tokens : ∀ segment ∈ Text.segments '/' path, segment ≠ ":id" → Name.IsToken segment) :
    (pathSegments path).any isParameter = decide (":id" ∈ Text.segments '/' path) := by
  rw [pathSegments, Bool.eq_iff_iff, List.any_eq_true, decide_eq_true_iff]
  constructor
  · rintro ⟨segment, member, parameter⟩
    rw [isParameter_eq tokens member, beq_iff_eq] at parameter
    exact parameter ▸ member
  · exact fun item => ⟨":id", item, by decide⟩

/-- A route of a compiled table has at most one parameter in its path. -/
theorem countP_isParameter_le (routePath : IsRoutePath route.path) :
    (pathSegments route.path).countP isParameter ≤ 1 := by
  rw [pathSegments, List.countP_congr fun segment member => by
    rw [isParameter_eq routePath.tokens member]]
  exact routePath.count_item_le

theorem countP_isParameter_eq (routePath : IsRoutePath route.path) {place : Nat}
    (parameter : (pathSegments route.path).findIdx? isParameter = some place) :
    (pathSegments route.path).countP isParameter = 1 := by
  obtain ⟨front, item, back, cut, -⟩ := exists_cutAtParameter parameter
  have atMost := countP_isParameter_le routePath
  have atLeast := cut.countP_eq
  omega

/-- The length of a path is the number of its parameters and of its literals. -/
theorem length_eq_add (parts : List String) :
    parts.length = parts.countP isParameter + (literals parts).length := by
  rw [literals, ← List.countP_eq_length_filter]
  simpa using List.length_eq_countP_add_countP isParameter (l := parts)

/-- **Hints.** Let a route of a compiled table be observed on some path. The following are the same:
a hint `paramName` says that both paths have one shape, and a hint `idAfterAction` that the only
parameter has moved back; either hint is given only where the observed path has one parameter; and
either is given only where both paths have the same number of segments. In any case, a path of the
same shape with a parameter gets the first hint, and one with its only parameter moved back gets the
second. -/
theorem classify_tfae_of_compile {compiler : Compiler} {definition : Definition}
    {table : RouteTable} (compiled : compiler.compile definition = .ok table)
    (member : route ∈ table.routes) (seen : String) :
    [(Hint.classify route.path seen = .paramName →
          SameShape (pathSegments route.path) (pathSegments seen)) ∧
        (Hint.classify route.path seen = .idAfterAction →
          IsShifted (pathSegments route.path) (pathSegments seen)),
      Hint.classify route.path seen = .paramName ∨ Hint.classify route.path seen = .idAfterAction →
        (pathSegments seen).countP isParameter = 1,
      Hint.classify route.path seen = .paramName ∨ Hint.classify route.path seen = .idAfterAction →
        (pathSegments seen).length = (pathSegments route.path).length].TFAE ∧
    (SameShape (pathSegments route.path) (pathSegments seen) →
      (∃ place, IsParameterAt (pathSegments route.path) place) →
        Hint.classify route.path seen = .paramName) ∧
    (IsShifted (pathSegments route.path) (pathSegments seen) →
      Hint.classify route.path seen = .idAfterAction) := by
  have routePath := Compiler.isRoutePath_of_compile compiled member
  have first : ∀ {place}, IsParameterAt (pathSegments route.path) place →
      (pathSegments route.path).findIdx? isParameter = some place := by
    intro place parameter
    obtain ⟨_, found⟩ := exists_findIdx?_of_isParameterAt parameter
    exact findIdx?_of_isParameterAt (countP_isParameter_eq routePath found) parameter
  refine ⟨?_, ?_, ?_⟩
  · tfae_have 1 → 2 := by
      rintro ⟨shape, shifted⟩ (hint | hint)
      · obtain ⟨-, place, parameter, -⟩ := classify_eq_paramName_iff.mp hint
        rw [← (shape hint).countP_eq]
        exact countP_isParameter_eq routePath parameter
      · exact (shifted hint).single
    tfae_have 2 → 1 := by
      intro single
      constructor
      · intro hint
        obtain ⟨same, place, parameter, observed⟩ := classify_eq_paramName_iff.mp hint
        exact sameShape_of_literals_eq parameter observed same
          (countP_isParameter_eq routePath parameter) (single (.inl hint))
      · intro hint
        obtain ⟨same, place, next, later, parameter, observed⟩ :=
          classify_eq_idAfterAction_iff.mp hint
        exact ⟨single (.inr hint), same.symm, place, next, later,
          isParameterAt_of_findIdx? parameter, isParameterAt_of_findIdx? observed⟩
    tfae_have 2 ↔ 3 := by
      refine forall_congr' fun hinted => ?_
      obtain ⟨same, place, -, parameter, -⟩ := literals_eq_of_classify hinted
      have expectedLength := length_eq_add (pathSegments route.path)
      rw [length_eq_add (pathSegments seen), expectedLength, same,
        countP_isParameter_eq routePath parameter, Nat.add_right_cancel_iff]
    tfae_finish
  · rintro shape ⟨place, parameter⟩
    exact classify_eq_paramName_iff.mpr ⟨shape.literals_eq, place, first parameter,
      shape.findIdx?_eq ▸ first parameter⟩
  · rintro ⟨single, same, place, next, later, parameter, observed⟩
    exact classify_eq_idAfterAction_iff.mpr ⟨same.symm, place, next, later, first parameter,
      findIdx?_of_isParameterAt single observed⟩

/-- The process of a listing is observed under another name of its parameter, and with the parameter
behind the action. -/
theorem classify_tfae_listings : ∃ table,
    Compiler.default.compile (Definition.template "m" "listings" "tags" "audits") = .ok table ∧
    ∃ route ∈ table.routes, route.path = "/listings/:id/process" ∧
      Hint.classify route.path "/listings/:sku/process" = .paramName ∧
      SameShape (pathSegments route.path) (pathSegments "/listings/:sku/process") ∧
      Hint.classify route.path "/listings/process/\x7bid\x7d" = .idAfterAction ∧
      IsShifted (pathSegments route.path) (pathSegments "/listings/process/\x7bid\x7d") := by
  obtain ⟨table, compiled, checked⟩ := Outcome.exists_of_any_toOption (by decide +kernel :
    ((Compiler.default.compile (Definition.template "m" "listings" "tags" "audits")).toOption.any
      fun table => table.routes.any fun route => route.path == "/listings/:id/process") = true)
  rw [List.any_eq_true] at checked
  obtain ⟨route, member, path⟩ := checked
  rw [beq_iff_eq] at path
  have named : Hint.classify route.path "/listings/:sku/process" = .paramName := by
    rw [path]
    decide +kernel
  have behind : Hint.classify route.path "/listings/process/\x7bid\x7d" = .idAfterAction := by
    rw [path]
    decide +kernel
  have meant := fun seen => (classify_tfae_of_compile compiled member seen).1.out 1 0
  refine ⟨table, compiled, route, member, path, named, ?_, behind, ?_⟩
  · exact ((meant _).mp fun _ => by decide +kernel).1 named
  · exact ((meant _).mp fun _ => by decide +kernel).2 behind

/-- With a second parameter behind the first one, the hints are the same but do not say what they
mean: the paths do not have one shape, and the observed path has not one parameter. -/
theorem classify_ignores_later_parameters : ∃ table,
    Compiler.default.compile (Definition.template "m" "listings" "tags" "audits") = .ok table ∧
    (∃ route ∈ table.routes, route.path = "/listings/:id" ∧
      Hint.classify route.path "/listings/:id/:sku" = .paramName ∧
      ¬SameShape (pathSegments route.path) (pathSegments "/listings/:id/:sku")) ∧
    ∃ route ∈ table.routes, route.path = "/listings/:id/process" ∧
      Hint.classify route.path "/listings/process/:id/:sku" = .idAfterAction ∧
      ¬IsShifted (pathSegments route.path) (pathSegments "/listings/process/:id/:sku") := by
  obtain ⟨table, compiled, checked⟩ := Outcome.exists_of_any_toOption (by decide +kernel :
    ((Compiler.default.compile (Definition.template "m" "listings" "tags" "audits")).toOption.any
      fun table => (table.routes.any fun route => route.path == "/listings/:id") &&
        table.routes.any fun route => route.path == "/listings/:id/process") = true)
  simp only [Bool.and_eq_true, List.any_eq_true, beq_iff_eq] at checked
  obtain ⟨⟨detail, inTable, detailPath⟩, process, member, processPath⟩ := checked
  refine ⟨table, compiled, ⟨detail, inTable, detailPath, ?_, fun shape => ?_⟩,
    process, member, processPath, ?_, fun shifted => ?_⟩
  · rw [detailPath]
    decide +kernel
  · rw [detailPath] at shape
    exact absurd shape.length_eq (by decide +kernel)
  · rw [processPath]
    decide +kernel
  · exact absurd shifted.single (by decide +kernel)

end Conformance

end ModuleRoutes
