import ModuleRoutes.Proofs.Http.Matching
import ModuleRoutes.Proofs.Http.Router
import ModuleRoutes.Proofs.Http.Target

/-!
# Calls of handlers

A router answers a request by a call: it selects a path, the endpoint of the method there, and gives
the handler one object (`ModuleRoutes.Http.Router.respond_of_call?`). Of endpoints on paths of
segments it selects one whose segments the request fills
(`ModuleRoutes.Http.Router.select?_of_fills`), and on a path there is one endpoint for each method
(`ModuleRoutes.Http.Router.endpointOn?_of_mem`). Without a query and a body, the object holds the
value of the item and nothing else (`ModuleRoutes.Http.Router.Reaches.call?_bare`).
-/

namespace ModuleRoutes

namespace Method

theorem text_ne_head (method : Method) : method.text ≠ "HEAD" := by cases method <;> decide

theorem text_injective : Function.Injective text := by
  intro left right same
  cases left <;> cases right <;> first | rfl | exact absurd same (by decide)

end Method

namespace Http

/-- The response that gives the answer of a handler. -/
def Response.ofAnswer : Except HandlerFault Json → Response
  | .ok answer => ⟨200, answer.compact⟩
  | .error fault => .ofFault fault

/-- The handler that an endpoint gives a request to, and what the handler sees of it. -/
def Endpoint.call? (endpoint : Endpoint) (request : Request) : Option (Handler × Json) :=
  match endpoint.service with
  | .document _ => none
  | .handler handler =>
    ((decodeParameters ((endpoint.pattern.bind? request.target.path).getD [])).toOption.bind
      fun parameters =>
        mergedRequest? parameters request.target.query request.contentType request.body).map
      fun merged => (handler, merged)

/-- The handler that a router gives a request to, and what the handler sees of it. -/
def Router.call? (router : Router) (request : Request) : Option (Handler × Json) :=
  (router.select? request.target.path).bind fun selected =>
    (router.endpointOn? selected.path request.method).bind fun endpoint => endpoint.call? request

/-- A request that goes to a handler, with the values that its path gives the parameters. -/
def Router.Reaches (router : Router) (request : Request) (handler : Handler)
    (values : List (List Char × List Char)) : Prop :=
  ∃ selected endpoint, router.select? request.target.path = some selected ∧
    router.endpointOn? selected.path request.method = some endpoint ∧
    endpoint.service = .handler handler ∧
    endpoint.pattern.bind? request.target.path = some values

/-- The response to a method: one to `HEAD` has no text. -/
def Response.forMethod (response : Response) (method : String) : Response :=
  if method = "HEAD" then { response with body := "" } else response

/-- An endpoint on the path with some segments. -/
structure Endpoint.IsOn (endpoint : Endpoint) (parts : List String) : Prop where
  path : endpoint.path = bracedPath ("/" ++ Text.joined "/" parts)
  pattern : endpoint.pattern = segmentsPattern parts
  filled : ∀ part ∈ parts, part ≠ ""
  free : ∀ part ∈ parts, '/' ∉ part.toList

variable {request : Request} {handler : Handler} {merged : Json} {router : Router}
  {endpoint : Endpoint} {parts : List String} {value : String}
  {values : List (List Char × List Char)}

/-! ## Responses -/

theorem Router.Reaches.respond_eq (reaches : router.Reaches request handler values) :
    router.respond request = (runHandler handler request values).forMethod request.method := by
  obtain ⟨selected, endpoint, selects, found, service, binds⟩ := reaches
  rw [respond, selects]
  dsimp only
  rw [found]
  dsimp only
  rw [runEndpoint, service]
  dsimp only
  rw [binds, Option.getD_some]
  rfl

theorem Router.Reaches.call?_eq (reaches : router.Reaches request handler values) :
    router.call? request = ((decodeParameters values).toOption.bind fun parameters =>
      mergedRequest? parameters request.target.query request.contentType request.body).map
        fun merged => (handler, merged) := by
  obtain ⟨selected, endpoint, selects, found, service, binds⟩ := reaches
  rw [call?, selects, Option.bind_some, found, Option.bind_some, Endpoint.call?, service]
  dsimp only
  rw [binds, Option.getD_some]

theorem Router.runEndpoint_of_call? (called : endpoint.call? request = some (handler, merged)) :
    runEndpoint endpoint request = .ofAnswer (handler merged) := by
  unfold Endpoint.call? at called
  unfold runEndpoint
  cases service : endpoint.service with
  | document text => rw [service] at called; cases called
  | handler own =>
    rw [service] at called
    obtain ⟨seen, merges, same⟩ := Option.map_eq_some_iff.mp called
    obtain ⟨parameters, decoded, merges⟩ := Option.bind_eq_some_iff.mp merges
    cases same
    dsimp only
    unfold runHandler
    cases decodes : decodeParameters ((endpoint.pattern.bind? request.target.path).getD []) with
    | error name => rw [decodes] at decoded; cases decoded
    | ok read =>
      rw [decodes] at decoded
      cases decoded
      dsimp only
      rw [merges]
      dsimp only
      cases handler merged <;> rfl

/-- The response to a request that goes to a handler is the handler's answer to what it sees. -/
theorem Router.respond_of_call? (called : router.call? request = some (handler, merged))
    (plain : request.method ≠ "HEAD") : router.respond request = .ofAnswer (handler merged) := by
  obtain ⟨selected, selects, called⟩ := Option.bind_eq_some_iff.mp called
  obtain ⟨endpoint, found, called⟩ := Option.bind_eq_some_iff.mp called
  rw [respond, selects]
  dsimp only
  rw [found]
  dsimp only
  rw [if_neg plain, runEndpoint_of_call? called]

/-! ## Selection -/

theorem Endpoint.IsOn.bind?_eq_some_iff {segments : List (List Char)} (isOn : endpoint.IsOn parts)
    (clean : ∀ segment ∈ segments, segment ≠ [] ∧ '/' ∉ segment) :
    endpoint.pattern.bind? (pathOf segments) = some values ↔ Fills parts segments values := by
  rw [isOn.pattern]
  exact bind?_segmentsPattern_iff (fun part member _ => isOn.free part member) clean

/-- A path with a value for the item selects its own endpoints, if it fills the segments of another
path only where that path has an item and it has none itself. -/
theorem Router.select?_of_fills
    (each : ∀ endpoint ∈ router.endpoints, ∃ others, endpoint.IsOn others ∧
      ∀ values, Fills others ((filledSegments value parts).map String.toList) values →
        others = parts ∨ (":id" ∉ parts ∧ ":id" ∈ others))
    (present : ∃ endpoint ∈ router.endpoints, endpoint.IsOn parts)
    (clean : ∀ segment ∈ (filledSegments value parts).map String.toList,
      segment ≠ [] ∧ '/' ∉ segment) :
    ∃ selected, router.select? (pathOf ((filledSegments value parts).map String.toList)) =
      some selected ∧ selected.IsOn parts := by
  have matching : ∀ endpoint ∈ router.endpoints,
      (endpoint.pattern.bind? (pathOf ((filledSegments value parts).map String.toList))).isSome =
        true → endpoint.IsOn parts ∨ ∃ others, endpoint.IsOn others ∧ ":id" ∉ parts ∧
          ":id" ∈ others ∧ ∃ values, Fills others (parts.map String.toList) values := by
    intro endpoint member matched
    obtain ⟨others, isOn, different⟩ := each endpoint member
    obtain ⟨values, bound⟩ := Option.isSome_iff_exists.mp matched
    have fills := (isOn.bind?_eq_some_iff clean).mp bound
    rcases different values fills with rfl | ⟨plain, item⟩
    · exact .inl isOn
    · rw [filledSegments_eq_self value plain] at fills
      exact .inr ⟨others, isOn, plain, item, values, fills⟩
  refine foldl_preferredOf ?_ ?_
  · intro endpoint _ other otherMember isOn notOn
    obtain ⟨otherMember, matched⟩ := List.mem_filter.mp otherMember
    obtain ⟨others, otherOn, plain, item, values, fills⟩ :=
      (matching other otherMember matched).resolve_left notOn
    rw [isOn.pattern, otherOn.pattern]
    exact preferred_of_fills plain isOn.filled fills item
  · obtain ⟨endpoint, member, isOn⟩ := present
    refine ⟨endpoint, List.mem_filter.mpr ⟨member, Option.isSome_iff_exists.mpr ?_⟩, isOn⟩
    exact ⟨_, (isOn.bind?_eq_some_iff clean).mpr (fills_filledSegments value parts)⟩

/-- Where no two endpoints share a path and a method, each is found by its own. -/
theorem Router.endpointOn?_of_mem (apart : (router.entries.map Entry.place).Nodup)
    (member : endpoint ∈ router.endpoints) :
    router.endpointOn? endpoint.path endpoint.method.text = some endpoint := by
  rw [entries, List.map_map] at apart
  cases found : router.endpointOn? endpoint.path endpoint.method.text with
  | none => simpa using List.find?_eq_none.mp found endpoint member
  | some other =>
    have fits := List.find?_some found
    rw [Bool.and_eq_true, Bool.or_eq_true, Bool.and_eq_true, decide_eq_true_iff, decide_eq_true_iff,
      decide_eq_true_iff, decide_eq_true_iff] at fits
    have method :=
      Method.text_injective (fits.2.resolve_right fun head => Method.text_ne_head _ head.2)
    exact congrArg some (List.inj_on_of_nodup_map apart (List.mem_of_find?_eq_some found) member
      (Prod.ext fits.1 method))

/-! ## What handlers see -/

/-- What a handler sees of a request without a query and a body: the value of the item, if the path
has one. -/
def bareObject (parts : List String) (value : String) : Json :=
  .obj (if ":id" ∈ parts then [("id", .str value)] else [])

theorem decodeParameters_replicate (unreserved : ∀ c ∈ value.toList, isUnreserved c = true)
    (count : Nat) :
    decodeParameters (List.replicate count (['i', 'd'], value.toList)) =
      .ok (List.replicate count ("id", value)) := by
  induction count with
  | zero => rfl
  | succ count ih =>
    rw [List.replicate_succ, decodeParameters, decodePathPart?_of_isUnreserved unreserved, ih]
    dsimp only
    rw [String.ofList_toList]
    rfl

theorem mergedRequest?_bare (parameters : List (String × String))
    (contentType : Option (List UInt8)) :
    mergedRequest? parameters none contentType [] = some (.obj (parameters.foldl
      (fun fields pair => Encoding.setField pair.1 (.str pair.2) fields) [])) := by
  rw [mergedRequest?, if_neg (by simp)]
  rfl

/-- Without a query and a body a handler sees the value of the item. -/
theorem Router.Reaches.call?_bare
    (reaches : router.Reaches request handler
      (List.replicate (parts.count ":id") (['i', 'd'], value.toList)))
    (noQuery : request.target.query = none) (noBody : request.body = [])
    (single : parts.count ":id" ≤ 1) (unreserved : ∀ c ∈ value.toList, isUnreserved c = true) :
    router.call? request = some (handler, bareObject parts value) := by
  have object : (List.replicate (parts.count ":id") ("id", value)).foldl
      (fun fields pair => Encoding.setField pair.1 (.str pair.2) fields) [] =
        if ":id" ∈ parts then [("id", Json.str value)] else [] := by
    by_cases item : ":id" ∈ parts
    · rw [le_antisymm single (List.count_pos_iff.mpr item), if_pos item]
      rfl
    · rw [List.count_eq_zero.mpr item, if_neg item]
      rfl
  rw [reaches.call?_eq, decodeParameters_replicate unreserved, noQuery, noBody]
  dsimp only [Except.toOption, Option.bind]
  rw [mergedRequest?_bare, object]
  rfl

end Http

end ModuleRoutes
