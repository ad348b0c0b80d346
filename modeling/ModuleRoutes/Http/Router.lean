import ModuleRoutes.Handler.Emission
import ModuleRoutes.Http.Merge
import ModuleRoutes.Http.Pattern
import ModuleRoutes.Http.Target
import ModuleRoutes.Json.Printer
import ModuleRoutes.OpenApi

/-!
# Routers

A router serves the routes of emitted modules, each below its module's mount. The routes of a module
are first grouped by path, as a path is given to a router once with all its methods. Building a
router fails when two modules share a mount, and is refused when a path is malformed or clashes with
another. A request goes to the preferred pattern that its path matches, and there to the service of
its method.
-/

namespace ModuleRoutes

namespace Http

/-- What answers the requests on an endpoint: a handler, or a fixed text. -/
inductive Service where
  | handler (answer : Handler)
  | document (text : String)

/-- A method on a path of a router. -/
structure Endpoint where
  path : String
  pattern : Pattern
  method : Method
  service : Service

/-- The endpoints of a router. -/
structure Router where
  endpoints : List Endpoint

/-- Why a router cannot be built. -/
inductive RouterFault where
  | duplicateMount (mount : String)
  | malformedMount (mount : String)
  | malformedPath (path : String)
  | overlappingMethod (path : String) (method : Method)
  | conflictingPath (path : String)
deriving DecidableEq, Repr

/-! ## Grouping by path -/

/-- A segment of a route's path as routers write it, with a parameter in braces. -/
def bracedSegment (part : List Char) : List Char :=
  match part with
  | ':' :: name => '\x7b' :: name ++ ['\x7d']
  | _ => part

/-- The path of a route as routers write it. -/
def bracedPath (path : String) : String :=
  String.ofList (Text.joinWith ['/'] ((Text.splitOn '/' path.toList).map bracedSegment))

/-- What answers the methods of one path. -/
structure MethodRouter where
  services : List (Method × Service)

namespace MethodRouter

def single (method : Method) (service : Service) : MethodRouter := ⟨[(method, service)]⟩

/-- The services of a path with that of one more method, which may not have one yet. -/
def on (existing : MethodRouter) (path : String) (method : Method) (service : Service) :
    Except RouterFault MethodRouter :=
  if existing.services.any fun other => other.1 = method then
    .error (.overlappingMethod path method)
  else .ok ⟨existing.services ++ [(method, service)]⟩

end MethodRouter

/-- What a map holds for a path, and the map without it. -/
def takeOut (path : String) (byPath : List (String × MethodRouter)) :
    Option MethodRouter × List (String × MethodRouter) :=
  (byPath.lookup path, byPath.filter fun entry => entry.1 ≠ path)

/-- The routes of a module by path, and the paths in the order in which they were first seen. -/
structure Grouping where
  order : List String
  byPath : List (String × MethodRouter)

namespace Grouping

def empty : Grouping := ⟨[], []⟩

/-- A grouping with one more route. What its path has so far is taken out and put back with the
method of the route. -/
def add (grouping : Grouping) (route : EmittedRoute) : Except RouterFault Grouping :=
  let path := bracedPath route.path
  match takeOut path grouping.byPath with
  | (some existing, others) => do
    let methods ← existing.on path route.method (.handler route.handler)
    pure ⟨grouping.order, (path, methods) :: others⟩
  | (none, others) =>
    pure ⟨grouping.order ++ [path],
      (path, .single route.method (.handler route.handler)) :: others⟩

end Grouping

/-! ## Building -/

/-- Whether no segment of a path begins like the parameters of another notation. -/
def segmentsAllowed (path : String) : Bool :=
  (Text.pieces '/' path).all fun part =>
    match part.toList with
    | ':' :: _ | '*' :: _ => false
    | _ => true

/-- Whether a text can be the path of a route. -/
def pathAllowed (path : String) : Bool :=
  path.toList.head? = some '/' && segmentsAllowed path

/-- Whether a segment takes the rest of a path. -/
def isRemainder (part : List Char) : Bool :=
  (Text.afterStart? ['\x7b', '*'] part).isSome && Text.endsWith ['\x7d'] part
    && !Text.endsWith ['\x7d', '\x7d'] part

/-- Whether modules can be mounted at a path. -/
def mountAllowed (mount : String) : Bool :=
  mount ≠ "/" && pathAllowed mount
    && (Text.splitOn '/' mount.toList).all fun part => !isRemainder part

/-- The path of a route below a mount. A route on the root of its module is served on the mount
itself. -/
def pathBelow (mount path : String) : String :=
  if mount.toList.getLast? = some '/' then
    mount ++ String.ofList (path.toList.dropWhile (· = '/'))
  else if path = "/" then mount
  else mount ++ path

namespace Router

def empty : Router := ⟨[]⟩

def add (router : Router) (path : String) (method : Method) (service : Service) :
    Except RouterFault Router :=
  if !pathAllowed path then .error (.malformedPath path)
  else
    match Pattern.ofPath? path with
    | none => .error (.malformedPath path)
    | some pattern =>
      if router.endpoints.any fun other => other.path = path && other.method = method then
        .error (.overlappingMethod path method)
      else if router.endpoints.any fun other =>
          other.path ≠ path && other.pattern.conflicts pattern then
        .error (.conflictingPath path)
      else .ok ⟨router.endpoints ++ [⟨path, pattern, method, service⟩]⟩

/-- A router with the methods of a path. -/
def route (router : Router) (path : String) (methods : MethodRouter) :
    Except RouterFault Router :=
  methods.services.foldlM (fun router (method, service) => router.add path method service) router

/-- A router with the methods of some paths, each path taken out of a map. -/
def routeAll (router : Router) (byPath : List (String × MethodRouter)) :
    List String → Except RouterFault Router
  | [] => .ok router
  | path :: order =>
    match takeOut path byPath with
    | (some methods, others) => do
      let next ← router.route path methods
      next.routeAll others order
    | (none, others) => router.routeAll others order

/-- The router of one module by itself, before it is mounted. -/
def ofModule (emitted : EmittedModule) : Except RouterFault Router := do
  let grouping ← emitted.routes.foldlM Grouping.add Grouping.empty
  empty.routeAll grouping.byPath grouping.order

/-- A router with a module below its mount. -/
def mount (router : Router) (emitted : EmittedModule) : Except RouterFault Router := do
  let inner ← ofModule emitted
  if !mountAllowed emitted.mount then throw (.malformedMount emitted.mount)
  inner.endpoints.foldlM
    (fun router endpoint =>
      router.add (pathBelow emitted.mount endpoint.path) endpoint.method endpoint.service)
    router

/-- A router with modules below their mounts. `mounts` holds the mounts that are taken. -/
def mountAll (router : Router) (mounts : List String) :
    List EmittedModule → Except RouterFault Router
  | [] => .ok router
  | emitted :: rest => do
    if emitted.mount ∈ mounts then throw (.duplicateMount emitted.mount)
    let next ← router.mount emitted
    next.mountAll (emitted.mount :: mounts) rest

/-- The path on which a router serves its document. -/
def documentPath : String := "/openapi.json"

/-- The router of some modules, with a document of their operations if there is one. -/
def build (modules : List EmittedModule) (document : Option OpenApi.Document) :
    Except RouterFault Router := do
  let router ← empty.mountAll [] modules
  match document with
  | some document => router.add documentPath .get (.document document.toJson.compact)
  | none => pure router

end Router

/-! ## Serving -/

/-- A request as it arrives. Its content type and its body are bytes that need not be texts. -/
structure Request where
  method : String
  target : Target
  contentType : Option (List UInt8)
  body : List UInt8
deriving DecidableEq, Repr

/-- A response: its status and its text. -/
structure Response where
  status : Nat
  body : String
deriving DecidableEq, Repr

namespace Response

/-- The response to a request that nothing serves. -/
def notFound : Response := ⟨404, ""⟩

/-- The response to a method that a path does not serve. -/
def methodNotAllowed : Response := ⟨405, ""⟩

/-- The response that reports a refusal. -/
def ofFault (fault : HandlerFault) : Response :=
  ⟨fault.status, (Json.obj [("error", .str fault.message)]).compact⟩

/-- The response to a body that should be JSON and is not: the beginning of a refusal, whose reason
is left out. -/
def malformedBody : Response := ⟨400, "\x7b\"error\":\"bad request: invalid JSON body:"⟩

/-- The response to a path whose parameter is no text. -/
def malformedParameter (name : List Char) : Response :=
  ⟨400, "Invalid URL: Invalid UTF-8 in `" ++ String.ofList name ++ "`"⟩

end Response

/-- The values of parameters as texts, or the name of the first that is none. -/
def decodeParameters :
    List (List Char × List Char) → Except (List Char) (List (String × String))
  | [] => .ok []
  | (name, value) :: rest =>
    match decodePathPart? value with
    | none => .error name
    | some text => (decodeParameters rest).map ((String.ofList name, String.ofList text) :: ·)

/-- The response of a handler to a request with the values of its path's parameters. -/
def runHandler (handler : Handler) (request : Request) (values : List (List Char × List Char)) :
    Response :=
  match decodeParameters values with
  | .error name => .malformedParameter name
  | .ok parameters =>
    match mergedRequest? parameters request.target.query request.contentType request.body with
    | none => .malformedBody
    | some merged =>
      match handler merged with
      | .ok answer => ⟨200, answer.compact⟩
      | .error fault => .ofFault fault

namespace Router

/-- The preferred endpoint of two that a path matches. -/
def preferredOf (best : Option Endpoint) (endpoint : Endpoint) : Option Endpoint :=
  match best with
  | none => some endpoint
  | some other => if endpoint.pattern.preferred other.pattern then some endpoint else some other

/-- An endpoint on the path that serves a request's path, of whatever method. -/
def select? (router : Router) (path : List Char) : Option Endpoint :=
  (router.endpoints.filter fun endpoint => (endpoint.pattern.bind? path).isSome).foldl preferredOf
    none

/-- The endpoint on a path for a method. `HEAD` goes where `GET` goes. -/
def endpointOn? (router : Router) (path method : String) : Option Endpoint :=
  router.endpoints.find? fun endpoint =>
    endpoint.path = path
      && (endpoint.method.text = method || (endpoint.method = .get && method = "HEAD"))

/-- The response of an endpoint to a request. -/
def runEndpoint (endpoint : Endpoint) (request : Request) : Response :=
  match endpoint.service with
  | .document text => ⟨200, text⟩
  | .handler handler =>
    runHandler handler request ((endpoint.pattern.bind? request.target.path).getD [])

/-- The response of a router to a request. A response to `HEAD` has no text. -/
def respond (router : Router) (request : Request) : Response :=
  match router.select? request.target.path with
  | none => .notFound
  | some selected =>
    match router.endpointOn? selected.path request.method with
    | none => .methodNotAllowed
    | some endpoint =>
      let response := runEndpoint endpoint request
      if request.method = "HEAD" then { response with body := "" } else response

end Router

end Http

end ModuleRoutes
