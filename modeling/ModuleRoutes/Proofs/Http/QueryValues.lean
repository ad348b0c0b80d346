import Mathlib.Data.List.TFAE
import Mathlib.Tactic.TFAE
import ModuleRoutes.Proofs.Http.Merged
import ModuleRoutes.Proofs.Http.Numerals

/-!
# Values of a query

A value of a query is seen by a handler as a number, as a truth value or as the text that it is,
unless it writes infinity, no number at all, or a number beyond all finite ones: then it is lost,
and the handler sees null (`ModuleRoutes.Http.queryValue_cases`). Without a JSON body these are the
only values that are lost (`ModuleRoutes.Http.Router.keepsValues_of_reaches`).
-/

namespace ModuleRoutes

namespace Http

open Encoding Number

/-! ## One value -/

/-- A number that JSON has a form for. -/
def IsFinite : Extended → Prop
  | .finite _ => True
  | .infinite _ | .undefined => False

instance : DecidablePred IsFinite
  | .finite _ => isTrue trivial
  | .infinite _ | .undefined => isFalse not_false

/-- A text that writes a number which JSON has no form for: infinity or no number by name, or a
numeral beyond all finite numbers. -/
def IsNonFinite (text : List Char) : Prop := ∃ number, Writes text number ∧ ¬IsFinite number

theorem isNonFinite_iff {text : List Char} :
    IsNonFinite text ↔ ∃ number ∈ numberOf? text, ¬IsFinite number := by
  simp only [IsNonFinite, Option.mem_def, numberOf?_eq_some_iff]

instance : DecidablePred IsNonFinite := fun _ => decidable_of_iff _ isNonFinite_iff.symm

example : IsNonFinite "-Infinity".toList ∧ IsNonFinite "1e309".toList ∧
    ¬IsNonFinite "1e308".toList := by
  decide +kernel

/-- A text that spells a truth value, whatever its case. -/
def SpellsTruth (text : List Char) (truth : Bool) : Prop :=
  lowerAscii text = (toString truth).toList

/-- What a text means as a value: the finite number that it writes, the truth value that it spells,
or else the exact text. -/
inductive IsValueOf (text : List Char) : Json → Prop
  | number {x : Binary64} (writes : Writes text (.finite x)) : IsValueOf text (.real x)
  | truth {truth : Bool} (spells : SpellsTruth text truth) : IsValueOf text (.bool truth)
  | text (noNumber : ∀ x, ¬Writes text (.finite x)) (noTruth : ∀ truth, ¬SpellsTruth text truth) :
      IsValueOf text (.str (String.ofList text))

/-- A text, a truth value or a number. -/
def IsScalar : Json → Prop
  | .str _ | .bool _ | .int _ | .real _ => True
  | .null | .arr _ | .obj _ => False

variable {text : List Char}

theorem IsValueOf.isScalar {value : Json} (isValue : IsValueOf text value) : IsScalar value := by
  cases isValue <;> trivial

/-- A text that spells a truth value is not read as a number. -/
theorem SpellsTruth.not_writes {truth : Bool} (spells : SpellsTruth text truth)
    (number : Extended) : ¬Writes text number := by
  have unread : numberOf? text = none := by
    cases truth <;>
      exact numberOf?_of_isLettered (isLettered_of_lowerAscii spells (by decide))
        (by rintro (same | same) <;> exact absurd (spells.symm.trans same) (by decide))
        fun isNan => absurd (spells.symm.trans isNan) (by decide)
  intro writes
  rw [numberOf?_eq_some_iff.mpr writes] at unread
  cases unread

/-- A text means one value only. -/
theorem IsValueOf.unique {value other : Json} (first : IsValueOf text value)
    (second : IsValueOf text other) : value = other := by
  cases first with
  | number writes =>
      cases second with
      | number otherWrites =>
          have same := (numberOf?_eq_some_iff.mpr writes).symm.trans
            (numberOf?_eq_some_iff.mpr otherWrites)
          cases same
          rfl
      | truth spells => exact absurd writes (spells.not_writes _)
      | text noNumber => exact absurd writes (noNumber _)
  | @truth firstTruth spells =>
      cases second with
      | number writes => exact absurd writes (spells.not_writes _)
      | @truth otherTruth otherSpells =>
          have same := String.toList_inj.mp (spells.symm.trans otherSpells)
          cases firstTruth <;> cases otherTruth <;> first | rfl | exact absurd same (by decide)
      | text _ noTruth => exact absurd spells (noTruth _)
  | text noNumber noTruth =>
      cases second with
      | number writes => exact absurd writes (noNumber _)
      | truth spells => exact absurd spells (noTruth _)
      | text => rfl

/-- A value of a query is null if it writes a number that is not finite, and else what it means. -/
theorem queryValue_cases (text : List Char) :
    (IsNonFinite text ∧ queryValue text = .null) ∨
      (¬IsNonFinite text ∧ IsValueOf text (queryValue text)) := by
  have spelled : ∀ truth : Bool, String.ofList (lowerAscii text) = toString truth ↔
      SpellsTruth text truth := by
    intro truth
    rw [← String.toList_inj, String.toList_ofList, SpellsTruth]
  rw [isNonFinite_iff]
  unfold queryValue
  split
  · next x read =>
      rw [read]
      exact .inr ⟨by rintro ⟨_, ⟨⟩, infinite⟩; exact infinite trivial,
        .number (numberOf?_eq_some_iff.mp read)⟩
  · next number other read =>
      rw [read]
      cases number with
      | finite x => exact absurd rfl (other x)
      | infinite negative => exact .inl ⟨⟨_, rfl, id⟩, rfl⟩
      | undefined => exact .inl ⟨⟨_, rfl, id⟩, rfl⟩
  · next unread =>
      have silent : ∀ x, ¬Writes text (.finite x) := by
        intro x writes
        rw [numberOf?_eq_some_iff.mpr writes] at unread
        cases unread
      rw [unread]
      refine .inr ⟨nofun, ?_⟩
      split
      · next isTrue => exact .truth ((spelled true).mp isTrue)
      · next isFalse => exact .truth ((spelled false).mp isFalse)
      · next notTrue notFalse =>
          refine .text silent fun truth spells => ?_
          cases truth with
          | true => exact notTrue ((spelled true).mpr spells)
          | false => exact notFalse ((spelled false).mpr spells)

theorem queryValue_eq_null_iff : queryValue text = .null ↔ IsNonFinite text := by
  rcases queryValue_cases text with ⟨isNonFinite, null⟩ | ⟨finite, isValue⟩
  · exact iff_of_true null isNonFinite
  · refine iff_of_false (fun null => ?_) finite
    rw [null] at isValue
    cases isValue

/-! ## All values -/

/-- The texts that the pairs of a query give. -/
def queryTexts (query : Option (List Char)) : List (String × List Char) :=
  (queryPairs (query.getD [])).map fun pair => (String.ofList pair.1, pair.2)

namespace Request

/-- The text of the last pair of the query with a key. -/
def lastText? (request : Request) (key : String) : Option (List Char) :=
  lastOf? key (queryTexts request.target.query)

/-- Without a JSON body, the value of a key is the last one of the query or else of the path. -/
theorem valueOf?_of_plain {request : Request} (plain : ¬request.HasJsonBody)
    (parameters : List (String × String)) (key : String) :
    request.valueOf? parameters key =
      ((request.lastText? key).map queryValue).or ((lastOf? key parameters).map .str) := by
  have query : queryFields request.target.query =
      (queryTexts request.target.query).map fun pair => (pair.1, queryValue pair.2) := by
    rw [queryFields, queryTexts, List.map_map]
    rfl
  rw [valueOf?, jsonFields, if_neg plain, List.lookup_nil, Option.none_or, query, lastOf?_map,
    pathFields, lastOf?_map, lastText?]

end Request

/-! ## Objects -/

/-- Fields with the values of the texts that stand under their keys, and with a text under each of
some other keys. -/
def HoldsValues (texts : String → Option (List Char)) (others : String → Option String)
    (fields : List (String × Json)) : Prop :=
  ∀ key, fields.lookup key = ((texts key).map queryValue).or ((others key).map .str)

namespace HoldsValues

variable {texts : String → Option (List Char)} {others : String → Option String}
  {fields : List (String × Json)} {key : String}

theorem lookup_of_mem (holds : HoldsValues texts others fields) (present : text ∈ texts key) :
    fields.lookup key = some (queryValue text) := by
  rw [holds key, Option.mem_def.mp present, Option.map_some, Option.some_or]

theorem lookup_eq_null_iff (holds : HoldsValues texts others fields) :
    fields.lookup key = some .null ↔ ∃ text ∈ texts key, IsNonFinite text := by
  cases present : texts key with
  | none =>
      rw [holds key, present, Option.map_none, Option.none_or]
      cases others key <;> simp
  | some text => simp [holds.lookup_of_mem present, queryValue_eq_null_iff]

theorem isScalar (holds : HoldsValues texts others fields) (ascending : Ascending fields)
    (finite : ∀ key, ∀ text ∈ texts key, ¬IsNonFinite text) :
    ∀ field ∈ fields, IsScalar field.2 := by
  rintro ⟨key, value⟩ member
  have found := (lookup_eq_some_iff_mem ascending).mpr member
  cases present : texts key with
  | none =>
      rw [holds key, present, Option.map_none, Option.none_or] at found
      obtain ⟨other, -, rfl⟩ := Option.map_eq_some_iff.mp found
      trivial
  | some text =>
      rw [holds.lookup_of_mem present, Option.some.injEq] at found
      exact found ▸ ((queryValue_cases text).resolve_left
        fun lost => finite key text present lost.1).2.isScalar

theorem tfae (holds : HoldsValues texts others fields) (ascending : Ascending fields) :
    [∀ key, ∀ text ∈ texts key, ¬IsNonFinite text,
      ∀ field ∈ fields, IsScalar field.2,
      ∀ key, ∀ text ∈ texts key, ∃ value ∈ fields.lookup key, IsValueOf text value].TFAE := by
  tfae_have 1 → 2 := holds.isScalar ascending
  tfae_have 2 → 1 := by
    intro scalars key text present isNonFinite
    have member := (lookup_eq_some_iff_mem ascending).mp (holds.lookup_of_mem present)
    have scalar := scalars _ member
    rw [queryValue_eq_null_iff.mpr isNonFinite] at scalar
    exact scalar
  tfae_have 1 → 3 := fun finite key text present =>
    ⟨_, holds.lookup_of_mem present,
      ((queryValue_cases text).resolve_left fun lost => finite key text present lost.1).2⟩
  tfae_have 3 → 1 := by
    intro means key text present isNonFinite
    obtain ⟨value, found, isValue⟩ := means key text present
    have null := holds.lookup_eq_null_iff.mpr ⟨text, present, isNonFinite⟩
    rw [Option.mem_def.mp found, Option.some.injEq] at null
    rw [null] at isValue
    cases isValue
  tfae_finish

end HoldsValues

namespace Router

variable {router : Router} {request : Request} {handler : Handler}
  {values : List (List Char × List Char)}

/-- A request without a JSON body gets to the handler with the values of its query, unless the value
of a parameter is no text. -/
theorem Reaches.refused_or_holds (reaches : router.Reaches request handler values)
    (plain : ¬request.HasJsonBody) :
    ((∃ value ∈ values, decodePathPart? value.2 = none) ∧ router.call? request = none) ∨
    ((¬∃ value ∈ values, decodePathPart? value.2 = none) ∧
      ∃ parameters fields, router.call? request = some (handler, .obj fields) ∧
        Ascending fields ∧
        HoldsValues request.lastText? (fun key => lastOf? key parameters) fields) := by
  have sound : ¬request.IsMalformed := fun malformed => plain malformed.1
  rcases reaches.refused_or_called with ⟨cause, notCalled, -⟩ |
    ⟨noCause, parameters, -, calls, -⟩
  · exact .inl ⟨cause.resolve_right sound, notCalled⟩
  · refine .inr ⟨fun cause => noCause (.inl cause), parameters, _, calls,
      ascending_setFields List.Pairwise.nil, fun key => ?_⟩
    rw [lookup_setFields, request.lastOf?_allFields, List.lookup_nil, Option.or_none,
      request.valueOf?_of_plain plain]

/-- **Values of a query.** Let a request without a JSON body reach a handler. The handler is not
called exactly if the value of some parameter is no text. When it is called, it sees an object in
which exactly those keys are null whose last value in the query writes a number that is not finite.
The following are the same: there is no such key; all values of the object are texts, truth values
or numbers; and each key of the query has the value that its last text means. -/
theorem keepsValues_of_reaches (reaches : router.Reaches request handler values)
    (plain : ¬request.HasJsonBody) :
    (router.call? request = none ↔ ∃ value ∈ values, decodePathPart? value.2 = none) ∧
    ∀ called seen, router.call? request = some (called, seen) → called = handler ∧
      ∃ fields, seen = .obj fields ∧
        (∀ key, fields.lookup key = some .null ↔ ∃ text ∈ request.lastText? key, IsNonFinite text) ∧
        [∀ key, ∀ text ∈ request.lastText? key, ¬IsNonFinite text,
          ∀ field ∈ fields, IsScalar field.2,
          ∀ key, ∀ text ∈ request.lastText? key,
            ∃ value ∈ fields.lookup key, IsValueOf text value].TFAE := by
  rcases reaches.refused_or_holds plain with ⟨cause, notCalled⟩ |
    ⟨noCause, parameters, fields, calls, ascending, holds⟩
  · exact ⟨iff_of_true notCalled cause, by rw [notCalled]; exact nofun⟩
  · refine ⟨iff_of_false (by rw [calls]; exact nofun) noCause, ?_⟩
    intro called seen same
    rw [calls, Option.some.injEq, Prod.mk.injEq] at same
    obtain ⟨rfl, rfl⟩ := same
    exact ⟨rfl, fields, rfl, fun key => holds.lookup_eq_null_iff, holds.tfae ascending⟩

/-- A request to process a rule with a number, a truth value and a text. -/
def typedRequest : Request := ruleRequest "42" (some "limit=1e308&draft=TRUE&sku=sku-1") none ""

theorem keepsValues_typed : ∃ router : Router,
    router.Reaches typedRequest .echo [(['i', 'd'], ['4', '2'])] ∧ ¬typedRequest.HasJsonBody ∧
    ∃ fields, router.call? typedRequest = some (.echo, .obj fields) ∧
      (∀ field ∈ fields, IsScalar field.2) ∧
      ∃ value ∈ fields.lookup "limit", IsValueOf "1e308".toList value := by
  obtain ⟨router, -, reaches⟩ := exists_reaches_rules
  have reachesTyped : router.Reaches typedRequest .echo [(['i', 'd'], ['4', '2'])] :=
    reaches "42" (by decide) _ _ _
  have plain : ¬typedRequest.HasJsonBody := by decide +kernel
  obtain ⟨refused, keeps⟩ := keepsValues_of_reaches reachesTyped plain
  have calls : router.call? typedRequest ≠ none := mt refused.mp (by decide +kernel)
  obtain ⟨⟨called, seen⟩, calls⟩ := Option.ne_none_iff_exists'.mp calls
  obtain ⟨rfl, fields, rfl, -, same⟩ := keeps called seen calls
  have finite : ∀ key, ∀ text ∈ typedRequest.lastText? key, ¬IsNonFinite text := by
    have each : ∀ pair ∈ queryTexts typedRequest.target.query, ¬IsNonFinite pair.2 := by
      decide +kernel
    exact fun key text last => each _ (mem_of_lastOf? last)
  have means : ∀ key, ∀ text ∈ typedRequest.lastText? key,
      ∃ value ∈ fields.lookup key, IsValueOf text value := (same.out 0 2).mp finite
  exact ⟨router, reachesTyped, plain, fields, calls, (same.out 0 1).mp finite,
    means "limit" _ (by decide +kernel)⟩

/-- A request to process a rule with a name that is read as no number, and a number beyond all
finite ones. -/
def lossyRequest : Request := ruleRequest "42" (some "name=Nan&limit=1e309") none ""

/-- A text that is read as a number which is not finite is lost. -/
theorem nan_is_lost : ∃ router : Router,
    router.Reaches lossyRequest .echo [(['i', 'd'], ['4', '2'])] ∧ ¬lossyRequest.HasJsonBody ∧
    lossyRequest.lastText? "name" = some "Nan".toList ∧
    ∃ fields, router.call? lossyRequest = some (.echo, .obj fields) ∧
      fields.lookup "name" = some .null ∧ fields.lookup "limit" = some .null ∧
      ¬∀ field ∈ fields, IsScalar field.2 := by
  obtain ⟨router, -, reaches⟩ := exists_reaches_rules
  have reachesLossy : router.Reaches lossyRequest .echo [(['i', 'd'], ['4', '2'])] :=
    reaches "42" (by decide) _ _ _
  have plain : ¬lossyRequest.HasJsonBody := by decide +kernel
  have name : lossyRequest.lastText? "name" = some "Nan".toList := by decide +kernel
  have limit : lossyRequest.lastText? "limit" = some "1e309".toList := by decide +kernel
  rcases reachesLossy.refused_or_holds plain with ⟨cause, -⟩ |
    ⟨-, parameters, fields, calls, ascending, holds⟩
  · exact absurd cause (by decide +kernel)
  have lost := holds.lookup_eq_null_iff.mpr ⟨_, name, by decide +kernel⟩
  refine ⟨router, reachesLossy, plain, name, fields, calls, lost,
    holds.lookup_eq_null_iff.mpr ⟨_, limit, by decide +kernel⟩, fun scalars => ?_⟩
  exact scalars _ ((lookup_eq_some_iff_mem ascending).mp lost)

end Router

end Http

end ModuleRoutes
