import ModuleRoutes.Proofs.Encoding.Fields
import ModuleRoutes.Proofs.Http.Dispatch
import ModuleRoutes.Proofs.Json.RoundTrip
import ModuleRoutes.Proofs.Text.Search
import ModuleRoutes.Proofs.Text.Utf8

/-!
# Merged requests

The object that a handler sees has for each key the value of the latest source that has the key: a
JSON body before the query, the query before the path, and in each source the last value
(`ModuleRoutes.Http.Router.merges_of_reaches`). A handler is not called only where a value of the
path is no text or a body should be JSON and is not; a body of any other content type is not looked
at.
-/

namespace ModuleRoutes

open Encoding

/-! ## Objects -/

namespace Json

theorem ascending_ofFields? {depth : Nat} {start fields : List (String × Json)}
    {data : List (Option String × Datum)} (read : ofFields? depth start data = some fields)
    (ascending : Ascending start) : Ascending fields := by
  induction data generalizing start with
  | nil =>
      rw [ofFields?, Option.some.injEq] at read
      exact read ▸ ascending
  | cons entry data ih =>
      rw [ofFields?] at read
      obtain ⟨name, -, read⟩ := Option.bind_eq_some_iff.mp read
      obtain ⟨value, -, read⟩ := Option.bind_eq_some_iff.mp read
      exact ih read (ascending_setField ascending)

/-- The fields of an object that is read have different keys, in ascending order. -/
theorem ascending_of_ofDatum? {depth : Nat} {datum : Datum} {fields : List (String × Json)}
    (read : ofDatum? depth datum = some (.obj fields)) : Ascending fields := by
  unfold ofDatum? at read
  split at read
  all_goals try cases read
  · obtain ⟨items, -, same⟩ := Option.map_eq_some_iff.mp read
    cases same
  · obtain ⟨others, read, same⟩ := Option.map_eq_some_iff.mp read
    cases same
    exact ascending_ofFields? read List.Pairwise.nil

theorem ascending_of_parse? {text : String} {fields : List (String × Json)}
    (read : parse? text = some (.obj fields)) : Ascending fields := by
  unfold parse? parseWithin? at read
  split at read
  · exact ascending_of_ofDatum? read
  · cases read

/-- Bytes have the value of the text that they are the bytes of. -/
theorem parseBytes?_eq_some_iff {bytes : List UInt8} {value : Json} :
    parseBytes? bytes = some value ↔
      ∃ text : String, bytes = Text.encodeUtf8 text.toList ∧ parse? text = some value := by
  rw [parseBytes?, Option.bind_eq_some_iff]
  constructor
  · rintro ⟨text, decoded, read⟩
    exact ⟨String.ofList text,
      by rw [String.toList_ofList, Text.decodeUtf8?_eq_some_iff.mp decoded], read⟩
  · rintro ⟨text, rfl, read⟩
    exact ⟨_, Text.decodeUtf8?_eq_some_iff.mpr rfl, by rwa [String.ofList_toList]⟩

theorem parseBytes?_encodeUtf8 (text : String) :
    parseBytes? (Text.encodeUtf8 text.toList) = parse? text := by
  rw [parseBytes?, Text.decodeUtf8?_eq_some_iff.mpr rfl, Option.bind_some, String.ofList_toList]

end Json

namespace Http

/-! ## Bodies -/

/-- A content type that says JSON: visible ASCII characters, blanks and tabs only, the bytes of a
text that names it. -/
def SaysJson : Option (List UInt8) → Prop
  | none => False
  | some value =>
    (∀ b ∈ value, 32 ≤ b.toNat ∧ b.toNat < 127 ∨ b = 9) ∧
      ∃ text, value = Text.encodeUtf8 text ∧ "application/json".toList <:+: text

theorem headerText?_eq_some_iff {value : List UInt8} {text : List Char} :
    headerText? value = some text ↔
      (∀ b ∈ value, 32 ≤ b.toNat ∧ b.toNat < 127 ∨ b = 9) ∧ value = Text.encodeUtf8 text := by
  have visible : (value.all fun b => (32 ≤ b.toNat && b.toNat < 127) || b = 9) = true ↔
      ∀ b ∈ value, 32 ≤ b.toNat ∧ b.toNat < 127 ∨ b = 9 := by
    simp only [List.all_eq_true, Bool.or_eq_true, Bool.and_eq_true, decide_eq_true_eq]
  rw [headerText?, ← visible, ← Text.decodeUtf8?_eq_some_iff]
  split
  · next allowed => exact (and_iff_right allowed).symm
  · next refused => exact iff_of_false nofun fun readable => refused readable.1

theorem saysJson_iff {contentType : Option (List UInt8)} :
    saysJson contentType = true ↔ SaysJson contentType := by
  cases contentType with
  | none => exact iff_of_false nofun not_false
  | some value =>
      rw [saysJson, SaysJson, Option.bind_some, ← exists_and_left]
      simp only [← and_assoc, ← headerText?_eq_some_iff]
      cases headerText? value with
      | none => simp
      | some text => simp [Text.isSome_afterFirst?_iff]

instance : DecidablePred SaysJson := fun _ => decidable_of_iff _ saysJson_iff

/-- A request with a body that should be JSON. -/
def Request.HasJsonBody (request : Request) : Prop :=
  SaysJson request.contentType ∧ request.body ≠ []

instance (request : Request) : Decidable request.HasJsonBody :=
  inferInstanceAs (Decidable (_ ∧ _))

/-- A request with a body that should be JSON and is not: no text with its bytes is JSON. -/
def Request.IsMalformed (request : Request) : Prop :=
  request.HasJsonBody ∧
    ∀ text : String, request.body = Text.encodeUtf8 text.toList → Json.parse? text = none

theorem Request.isMalformed_iff {request : Request} :
    request.IsMalformed ↔ request.HasJsonBody ∧ Json.parseBytes? request.body = none := by
  refine and_congr_right' ?_
  simp only [Option.eq_none_iff_forall_ne_some, ne_eq, Json.parseBytes?_eq_some_iff]
  exact ⟨fun unread value ⟨text, bytes, read⟩ => unread text bytes value read,
    fun unread text bytes value read => unread value ⟨text, bytes, read⟩⟩

instance (request : Request) : Decidable request.IsMalformed :=
  decidable_of_iff (request.HasJsonBody ∧ (Json.parseBytes? request.body).isNone = true)
    ((and_congr_right' Option.isNone_iff_eq_none).trans Request.isMalformed_iff.symm)

/-- The fields that a JSON body gives: those of an object, or the whole body under its own key. -/
def bodyFields : Json → List (String × Json)
  | .obj fields => fields
  | body => [("body", body)]

theorem ascending_bodyFields {bytes : List UInt8} {body : Json}
    (read : Json.parseBytes? bytes = some body) : Ascending (bodyFields body) := by
  obtain ⟨text, -, read⟩ := Json.parseBytes?_eq_some_iff.mp read
  cases body with
  | obj fields => exact Json.ascending_of_parse? read
  | _ => exact List.pairwise_singleton _ _

theorem mergeBody_eq (fields : List (String × Json)) (bytes : List UInt8) :
    mergeBody fields bytes =
      (Json.parseBytes? bytes).map fun body => setFields (bodyFields body) fields := by
  rw [mergeBody]
  cases Json.parseBytes? bytes with
  | none => rfl
  | some body => cases body <;> rfl

/-! ## Sources -/

/-- The fields that the parameters of a path give. -/
def pathFields (parameters : List (String × String)) : List (String × Json) :=
  parameters.map fun parameter => (parameter.1, .str parameter.2)

/-- The fields that the pairs of a query give, each with its value as it looks. -/
def queryFields (query : Option (List Char)) : List (String × Json) :=
  (queryPairs (query.getD [])).map fun pair => (String.ofList pair.1, queryValue pair.2)

namespace Request

/-- The fields that the body of a request gives: those of a JSON body. -/
def jsonFields (request : Request) : List (String × Json) :=
  if request.HasJsonBody then (Json.parseBytes? request.body).elim [] bodyFields else []

/-- The value of a key in a request with some parameters: that of the body, or else the last one of
the query, or else the last one of the path. -/
def valueOf? (request : Request) (parameters : List (String × String)) (key : String) :
    Option Json :=
  ((request.jsonFields.lookup key).or (lastOf? key (queryFields request.target.query))).or
    (lastOf? key (pathFields parameters))

/-- The fields of a request with some parameters, the later sources behind the earlier ones. -/
def allFields (request : Request) (parameters : List (String × String)) : List (String × Json) :=
  pathFields parameters ++ queryFields request.target.query ++ request.jsonFields

variable {request : Request} {parameters : List (String × String)}

theorem ascending_jsonFields (request : Request) : Ascending request.jsonFields := by
  rw [jsonFields]
  split
  · cases read : Json.parseBytes? request.body with
    | none => exact List.Pairwise.nil
    | some body => exact ascending_bodyFields read
  · exact List.Pairwise.nil

theorem lastOf?_allFields (request : Request) (parameters : List (String × String)) (key : String) :
    lastOf? key (request.allFields parameters) = request.valueOf? parameters key := by
  rw [allFields, lastOf?_append, lastOf?_append, lastOf?_eq_lookup request.ascending_jsonFields,
    ← Option.or_assoc, valueOf?]

/-- A request is merged by setting the fields of its sources one after the other, unless its body
should be JSON and is not. -/
theorem mergedRequest?_eq (request : Request) (parameters : List (String × String)) :
    mergedRequest? parameters request.target.query request.contentType request.body =
      if request.IsMalformed then none
      else some (.obj (setFields (request.allFields parameters) [])) := by
  have before : (queryPairs (request.target.query.getD [])).foldl
      (fun fields pair => setField (String.ofList pair.1) (queryValue pair.2) fields)
      (parameters.foldl (fun fields pair => setField pair.1 (.str pair.2) fields) []) =
        setFields (pathFields parameters ++ queryFields request.target.query) [] := by
    rw [setFields_append, setFields, setFields, pathFields, queryFields, List.foldl_map,
      List.foldl_map]
  have counts : (saysJson request.contentType && !request.body.isEmpty) =
      decide request.HasJsonBody := by
    rw [Bool.eq_iff_iff, Bool.and_eq_true, saysJson_iff, decide_eq_true_iff, HasJsonBody,
      Bool.not_eq_true', ← Bool.not_eq_true, List.isEmpty_iff]
  rw [mergedRequest?]
  dsimp only
  rw [before, counts, mergeBody_eq, allFields,
    setFields_append (pathFields parameters ++ queryFields request.target.query), jsonFields]
  by_cases hasBody : request.HasJsonBody
  · cases read : Json.parseBytes? request.body <;> simp [isMalformed_iff, hasBody, read]
  · simp [isMalformed_iff, hasBody, setFields]

end Request

/-! ## Requests that reach a handler -/

/-- A parameter and the text that its value in a path stands for. -/
def Decodes (value : List Char × List Char) (parameter : String × String) : Prop :=
  parameter.1 = String.ofList value.1 ∧
    (decodePathPart? value.2).map String.ofList = some parameter.2

theorem decodeParameters_eq_ok_iff {values : List (List Char × List Char)}
    {parameters : List (String × String)} :
    decodeParameters values = .ok parameters ↔ List.Forall₂ Decodes values parameters := by
  induction values generalizing parameters with
  | nil =>
      rw [decodeParameters, Except.ok.injEq, List.forall₂_nil_left_iff]
      exact eq_comm
  | cons value values ih =>
      obtain ⟨name, text⟩ := value
      rw [decodeParameters, List.forall₂_cons_left_iff]
      cases decoded : decodePathPart? text with
      | none => simp [Decodes, decoded]
      | some part =>
          simp only [Outcome.map_eq_ok_iff, ih, Decodes, decoded, Option.map_some,
            Option.some.injEq]
          constructor
          · rintro ⟨rest, decodes, rfl⟩
            exact ⟨_, _, ⟨rfl, rfl⟩, decodes, rfl⟩
          · rintro ⟨⟨_, _⟩, rest, ⟨rfl, rfl⟩, decodes, rfl⟩
            exact ⟨rest, decodes, rfl⟩

theorem exists_decodeParameters_eq_error_iff {values : List (List Char × List Char)} :
    (∃ name, decodeParameters values = .error name) ↔
      ∃ value ∈ values, decodePathPart? value.2 = none := by
  induction values with
  | nil => simp [decodeParameters]
  | cons value values ih =>
      obtain ⟨name, text⟩ := value
      rw [decodeParameters, List.exists_mem_cons_iff]
      cases decoded : decodePathPart? text with
      | none => simp
      | some part =>
          rw [← ih]
          cases decodeParameters values <;> simp [Except.map]

namespace Router

variable {router : Router} {request : Request} {handler : Handler}
  {values : List (List Char × List Char)} {parameters : List (String × String)}

/-- A body of another content type than JSON makes no difference. -/
theorem Reaches.eq_withBody (reaches : router.Reaches request handler values)
    (plain : ¬SaysJson request.contentType) (body : List UInt8) :
    router.call? { request with body := body } = router.call? request ∧
      router.respond { request with body := body } = router.respond request := by
  have reachesWith : router.Reaches { request with body := body } handler values := reaches
  have silent : saysJson request.contentType = false := by
    rwa [← Bool.not_eq_true, saysJson_iff]
  have merged : ∀ parameters query,
      mergedRequest? parameters query request.contentType body =
        mergedRequest? parameters query request.contentType request.body := by
    intro parameters query
    simp only [mergedRequest?, silent, Bool.false_and, Bool.false_eq_true, if_false]
  constructor
  · rw [reachesWith.call?_eq, reaches.call?_eq]
    simp only [merged]
  · rw [reachesWith.respond_eq, reaches.respond_eq]
    simp only [runHandler, merged]

/-- A request gets to the handler with the fields of its sources, unless the value of a parameter is
no text or its body should be JSON and is not. -/
theorem Reaches.refused_or_called (reaches : router.Reaches request handler values) :
    (((∃ value ∈ values, decodePathPart? value.2 = none) ∨ request.IsMalformed) ∧
      router.call? request = none ∧ (router.respond request).status = 400) ∨
    (¬((∃ value ∈ values, decodePathPart? value.2 = none) ∨ request.IsMalformed) ∧
      ∃ parameters, List.Forall₂ Decodes values parameters ∧
        router.call? request = some (handler, .obj (setFields (request.allFields parameters) [])) ∧
        router.respond request = (Response.ofAnswer
          (handler (.obj (setFields (request.allFields parameters) [])))).forMethod
            request.method) := by
  have status : ∀ response : Response, (response.forMethod request.method).status =
      response.status := by
    intro response
    unfold Response.forMethod
    split <;> rfl
  rw [reaches.call?_eq, reaches.respond_eq, runHandler]
  cases decoded : decodeParameters values with
  | error name =>
      exact .inl ⟨.inl (exists_decodeParameters_eq_error_iff.mp ⟨name, decoded⟩), rfl, status _⟩
  | ok parameters =>
      have readable : ¬∃ value ∈ values, decodePathPart? value.2 = none := by
        rw [← exists_decodeParameters_eq_error_iff, decoded]
        exact fun ⟨_, fails⟩ => nomatch fails
      have merged := request.mergedRequest?_eq parameters
      dsimp only [Except.toOption, Option.bind]
      by_cases malformed : request.IsMalformed
      · rw [if_pos malformed] at merged
        rw [merged]
        exact .inl ⟨.inr malformed, rfl, status _⟩
      · rw [if_neg malformed] at merged
        rw [merged]
        refine .inr ⟨not_or.mpr ⟨readable, malformed⟩, parameters,
          decodeParameters_eq_ok_iff.mp decoded, rfl, ?_⟩
        dsimp only
        cases handler (.obj (setFields (request.allFields parameters) [])) <;> rfl

/-- **Merging.** Let a request reach a handler. The handler is not called, and the response is 400,
exactly if the value of some parameter is no text, or the request has a body that should be JSON and
is not. When it is called, it sees an object with different keys whose value of each key is that of
the JSON body, or else the last one of the query, or else that of the path, and its answer is the
response. Where the content type does not say JSON, another body makes no difference. -/
theorem merges_of_reaches (reaches : router.Reaches request handler values) :
    (router.call? request = none ↔
      (∃ value ∈ values, decodePathPart? value.2 = none) ∨ request.IsMalformed) ∧
    (router.call? request = none → (router.respond request).status = 400) ∧
    (∀ called seen, router.call? request = some (called, seen) → called = handler ∧
      ∃ parameters fields, List.Forall₂ Decodes values parameters ∧ seen = .obj fields ∧
        Ascending fields ∧ (∀ key, fields.lookup key = request.valueOf? parameters key) ∧
        router.respond request = (Response.ofAnswer (handler seen)).forMethod request.method) ∧
    (¬SaysJson request.contentType → ∀ body,
      router.call? { request with body := body } = router.call? request ∧
        router.respond { request with body := body } = router.respond request) := by
  refine ⟨?_, ?_, ?_, reaches.eq_withBody⟩ <;>
    rcases reaches.refused_or_called with ⟨cause, notCalled, status⟩ |
      ⟨noCause, parameters, decodes, calls, responds⟩
  · exact iff_of_true notCalled cause
  · exact iff_of_false (by rw [calls]; exact nofun) noCause
  · exact fun _ => status
  · intro notCalled
    rw [calls] at notCalled
    cases notCalled
  · intro called seen calls
    rw [notCalled] at calls
    cases calls
  · intro called seen same
    rw [calls, Option.some.injEq, Prod.mk.injEq] at same
    obtain ⟨rfl, rfl⟩ := same
    refine ⟨rfl, parameters, _, decodes, rfl, ascending_setFields List.Pairwise.nil, ?_, responds⟩
    intro key
    rw [lookup_setFields, request.lastOf?_allFields, List.lookup_nil, Option.or_none]

/-- A request to process a rule, with the bytes of a content type and of a body. -/
def ruleRequest (rule : String) (query : Option String) (contentType : Option String)
    (body : String) : Request :=
  ⟨"POST", ⟨("/api/m/rules/" ++ rule ++ "/process").toList, query.map String.toList⟩,
    contentType.map fun text => Text.encodeUtf8 text.toList, Text.encodeUtf8 body.toList⟩

/-- A compiled module is served so that requests to process a rule reach a handler that answers with
what it sees. -/
theorem exists_reaches_rules : ∃ router,
    (∃ table binding emitted,
      Compiler.default.compile (Definition.template "m" "rules" "tags" "audits") = .ok table ∧
        table.emit binding = .ok emitted ∧ build [emitted] none = .ok router) ∧
    ∀ rule ∈ ["42", "%FF"], ∀ query contentType body,
      router.Reaches (ruleRequest rule query contentType body) .echo
        [(['i', 'd'], rule.toList)] := by
  obtain ⟨table, compiled, checked⟩ := Outcome.exists_of_any_toOption (by decide +kernel :
    ((Compiler.default.compile (Definition.template "m" "rules" "tags" "audits")).toOption.any
      fun table => table.mount == "/api/m" &&
        ((table.routes.any fun route =>
          route.path == "/rules/:id/process" && route.method == .post) &&
          table.routes.all fun other => ["42", "%FF"].all fun rule =>
            (Text.segments '/' other.path)[1]? != some rule)) = true)
  simp only [Bool.and_eq_true, List.any_eq_true, List.all_eq_true, beq_iff_eq, bne_iff_ne]
    at checked
  obtain ⟨mount, ⟨route, member, path, method⟩, fresh⟩ := checked
  have servable := RouteTable.isServable_of_compile compiled
  have bound : ∀ other ∈ table.routes,
      (((Binding.stubsFor table).insert route.handlerKey .echo).get? other.handlerKey).isSome =
        true := by
    intro other inTable
    by_cases same : other.handlerKey = route.handlerKey
    · rw [same, Binding.get?_insert_self, Option.isSome_some]
    · rw [Binding.get?_insert_of_ne same]
      exact Binding.isSome_get?_foldl_insert (.inr (List.mem_map_of_mem inTable))
  obtain ⟨emitted, emits⟩ := RouteTable.exists_emit_eq_ok bound
  obtain ⟨router, built, -, serves⟩ := exists_serves servable emits none
  refine ⟨router, ⟨table, _, emitted, compiled, emits, built⟩, ?_⟩
  intro rule listed query contentType body
  have isFresh : table.IsFreshFor route rule := by
    refine ⟨?_, ?_, fun other inTable _ => fresh other inTable rule listed⟩ <;>
      revert rule <;> decide
  obtain ⟨handler, bound, reaches⟩ :=
    serves.reaches servable member isFresh (query.map String.toList)
      (contentType.map fun text => Text.encodeUtf8 text.toList) (Text.encodeUtf8 body.toList)
  rw [Binding.get?_insert_self, Option.some.injEq] at bound
  subst bound
  have target : (table.mount ++ filledPath rule route.path).toList =
      ("/api/m/rules/" ++ rule ++ "/process").toList := by
    rw [mount, path]
    clear reaches isFresh
    revert rule
    decide +kernel
  have single : (Text.segments '/' (table.mount ++ route.path)).count ":id" = 1 := by
    rw [mount, path]
    decide +kernel
  rw [target, single, method] at reaches
  exact reaches

/-- A JSON body that gives an item and a reason. -/
def ruleBody : String := "\x7b\"id\":[\"1\"],\"reason\":\"r\"\x7d"

/-- The fields of a JSON body that gives an item and a reason. -/
def ruleFields : List (String × Json) := [("id", .arr [.str "1"]), ("reason", .str "r")]

theorem compact_ruleFields : (Json.obj ruleFields).compact = ruleBody := by
  simp only [ruleFields, Json.compact, Json.write, Json.writeFields, Json.writeField,
    Json.writeItems, Json.lineStart]
  decide +kernel

theorem parse?_ruleBody : Json.parse? ruleBody = some (.obj ruleFields) := by
  rw [← compact_ruleFields, Json.parse?_compact (by decide +kernel)]
  rfl

/-- A request that gives the item of its path in each source. -/
def clashingRequest : Request :=
  ruleRequest "42" (some "id=7&dry_run=true&id=8") (some "application/json") ruleBody

theorem jsonFields_clashingRequest : clashingRequest.jsonFields = ruleFields := by
  have body : clashingRequest.body = Text.encodeUtf8 ruleBody.toList := rfl
  rw [Request.jsonFields, if_pos (by decide +kernel), body, Json.parseBytes?_encodeUtf8,
    parse?_ruleBody]
  rfl

theorem queryFields_clashingRequest :
    queryFields clashingRequest.target.query =
      [("id", queryValue ['7']), ("dry_run", .bool true), ("id", queryValue ['8'])] := by
  have pairs : queryPairs (clashingRequest.target.query.getD []) =
      [("id".toList, ['7']), ("dry_run".toList, "true".toList), ("id".toList, ['8'])] := by
    decide +kernel
  have text : queryValue "true".toList = .bool true := by
    have none : numberOf? "true".toList = none := by decide +kernel
    rw [queryValue, none]
    rfl
  rw [queryFields, pairs, List.map_cons, List.map_cons, List.map_cons, text]
  rfl

theorem eq_of_decodes_item (decodes : List.Forall₂ Decodes [(['i', 'd'], ['4', '2'])] parameters) :
    parameters = [("id", "42")] := by
  have readable : decodeParameters [(['i', 'd'], ['4', '2'])] = .ok [("id", "42")] := rfl
  exact Except.ok.inj ((decodeParameters_eq_ok_iff.mpr decodes).symm.trans readable)

theorem merges_clashing : ∃ router : Router,
    router.Reaches clashingRequest .echo [(['i', 'd'], ['4', '2'])] ∧
    ∃ fields, router.call? clashingRequest = some (.echo, .obj fields) ∧
      fields.lookup "id" = some (.arr [.str "1"]) ∧ fields.lookup "reason" = some (.str "r") ∧
      fields.lookup "dry_run" = some (.bool true) ∧ fields.lookup "body" = none := by
  obtain ⟨router, -, reaches⟩ := exists_reaches_rules
  have reachesClashing : router.Reaches clashingRequest .echo [(['i', 'd'], ['4', '2'])] :=
    reaches "42" (by decide) _ _ _
  obtain ⟨refused, -, merged, -⟩ := merges_of_reaches reachesClashing
  have calls : router.call? clashingRequest ≠ none := mt refused.mp (by decide +kernel)
  obtain ⟨⟨called, seen⟩, calls⟩ := Option.ne_none_iff_exists'.mp calls
  obtain ⟨rfl, parameters, fields, decodes, rfl, -, lookups, -⟩ := merged called seen calls
  obtain rfl := eq_of_decodes_item decodes
  refine ⟨router, reachesClashing, fields, calls, ?_⟩
  simp only [lookups, Request.valueOf?, jsonFields_clashingRequest, queryFields_clashingRequest]
  exact ⟨rfl, rfl, rfl, rfl⟩

/-- A request with a JSON body whose content type has an unusual character. -/
def accentedRequest : Request :=
  ruleRequest "42" none (some "application/json; name=é") ruleBody

/-- A handler is not called where the value of a parameter is no text, and it does not see a JSON
body whose content type has an unusual character. -/
theorem merging_needs_texts : ∃ router : Router,
    (router.Reaches (ruleRequest "%FF" none none "") .echo [(['i', 'd'], ['%', 'F', 'F'])] ∧
      ¬(ruleRequest "%FF" none none "").IsMalformed ∧
      router.call? (ruleRequest "%FF" none none "") = none ∧
      (router.respond (ruleRequest "%FF" none none "")).status = 400) ∧
    (router.Reaches accentedRequest .echo [(['i', 'd'], ['4', '2'])] ∧
      (∃ contentType ∈ accentedRequest.contentType,
        Text.encodeUtf8 "application/json".toList <:+: contentType) ∧
      Json.parseBytes? accentedRequest.body = some (.obj ruleFields) ∧
      router.call? accentedRequest = some (.echo, .obj [("id", .str "42")])) := by
  obtain ⟨router, -, reaches⟩ := exists_reaches_rules
  refine ⟨router, ?_, ?_⟩
  · have reachesBytes := reaches "%FF" (by decide) none none ""
    have undecoded : ∃ value ∈ [(['i', 'd'], "%FF".toList)], decodePathPart? value.2 = none :=
      by decide +kernel
    rcases reachesBytes.refused_or_called with ⟨-, notCalled, status⟩ | ⟨none, -⟩
    · exact ⟨reachesBytes, by decide +kernel, notCalled, status⟩
    · exact absurd (.inl undecoded) none
  · have reachesAccented : router.Reaches accentedRequest .echo [(['i', 'd'], ['4', '2'])] :=
      reaches "42" (by decide) _ _ _
    have silent : ¬accentedRequest.HasJsonBody := by decide +kernel
    rcases reachesAccented.refused_or_called with ⟨cause, -⟩ | ⟨-, parameters, decodes, calls, -⟩
    · exact absurd cause (not_or.mpr ⟨by decide +kernel, fun malformed => silent malformed.1⟩)
    · rw [eq_of_decodes_item decodes, Request.allFields, Request.jsonFields, if_neg silent] at calls
      exact ⟨reachesAccented, ⟨_, rfl, by decide +kernel⟩,
        (Json.parseBytes?_encodeUtf8 ruleBody).trans parse?_ruleBody, calls⟩

end Router

end Http

end ModuleRoutes
