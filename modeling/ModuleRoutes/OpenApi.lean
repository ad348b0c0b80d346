import ModuleRoutes.Encoding.Fields
import ModuleRoutes.Json.Value
import ModuleRoutes.Route
import ModuleRoutes.Text.Blank

/-!
# Documents of operations

A document lists the operations of some tables in the form of the OpenAPI standard: one operation
for each route, on the path below its mount, with the handler key as its id. Parameters of a path
stand in braces. Of two routes on one method and path the later one is listed.
-/

namespace ModuleRoutes

namespace OpenApi

open Encoding

/-- The operation of a route. -/
structure Operation where
  tag : String
  summary : String
  operationId : String
  parameters : List String
  takesBody : Bool
  response : String
deriving DecidableEq, Repr

/-- The operations on a path. -/
structure PathItem where
  operations : List (Method × Operation)
deriving DecidableEq, Repr

/-- What a document says of a module. -/
structure Tag where
  name : String
  description : Option String
deriving DecidableEq, Repr

/-- The operations of some tables, by path. -/
structure Document where
  title : String
  version : String
  paths : List (String × PathItem)
  tags : List Tag
deriving DecidableEq, Repr

/-- The segments of a route's path as a document writes them, with parameters in braces, and the
names of the parameters among them. -/
def describedSegments : List (List Char) → List (List Char) × List (List Char)
  | [] => ([], [])
  | part :: rest =>
    let (segments, names) := describedSegments rest
    match part with
    | ':' :: name => (('\x7b' :: name ++ ['\x7d']) :: segments, name :: names)
    | _ => (part :: segments, names)

/-- The path of a route in a document, and the names of its parameters. -/
def describedPath (mount path : String) : String × List String :=
  let (segments, names) := describedSegments (Text.splitOn '/' path.toList)
  (String.ofList (Text.dropEndWhile (· = '/') mount.toList ++ Text.joinWith ['/'] segments),
    names.map String.ofList)

def operation (table : RouteTable) (route : Route) (names : List String) : Operation where
  tag := table.moduleId
  summary := route.handlerKey.family.text
  operationId := route.handlerKey.text
  parameters := names
  takesBody := route.method.carriesBody
  response :=
    match route.responseShape with
    | some shape => "`" ++ shape ++ "` response"
    | none => "OK"

/-- Operations with that of one method set. -/
def PathItem.set (item : PathItem) (method : Method) (operation : Operation) : PathItem :=
  ⟨(method, operation) :: item.operations.filter fun entry => entry.1 ≠ method⟩

/-- Paths with one operation set. -/
def setOperation (paths : List (String × PathItem)) (path : String) (method : Method)
    (operation : Operation) : List (String × PathItem) :=
  setField path (((paths.lookup path).getD ⟨[]⟩).set method operation) paths

/-- Paths with the operations of a table. -/
def addTable (paths : List (String × PathItem)) (table : RouteTable) : List (String × PathItem) :=
  table.routes.foldl
    (fun paths route =>
      let (path, names) := describedPath table.mount route.path
      setOperation paths path route.method (operation table route names))
    paths

def tag (table : RouteTable) : Tag :=
  ⟨table.moduleId, if table.theme.isEmpty then none else some ("theme: " ++ table.theme)⟩

def document (tables : List RouteTable) (title version : String) : Document :=
  ⟨title, version, tables.foldl addTable [], tables.map tag⟩

def typeJson (name : String) : Json := .obj [("type", .str name)]

/-- The written form of a content of JSON objects. -/
def contentJson : Json :=
  .obj [("application/json", .obj [("schema", typeJson "object")])]

def parameterJson (name : String) : Json :=
  .obj [("name", .str name), ("in", .str "path"), ("required", .bool true),
    ("schema", typeJson "string")]

def Operation.toJson (operation : Operation) : Json :=
  .obj ([("tags", .arr [.str operation.tag]), ("summary", .str operation.summary),
      ("operationId", .str operation.operationId)]
    ++ (if operation.parameters.isEmpty then []
      else [("parameters", .arr (operation.parameters.map parameterJson))])
    ++ (if operation.takesBody then
        [("requestBody", .obj [("content", contentJson), ("required", .bool false)])]
      else [])
    ++ [("responses",
      .obj [("200", .obj [("description", .str operation.response), ("content", contentJson)])])])

/-- The methods in the order in which a document lists them. -/
def methodOrder : List Method := [.get, .put, .post, .delete, .patch]

/-- The written form of the operations on a path. -/
def PathItem.toJson (item : PathItem) : Json :=
  .obj (methodOrder.filterMap fun method =>
    (item.operations.lookup method).map fun operation => (method.lowerText, operation.toJson))

def Tag.toJson (tag : Tag) : Json :=
  .obj (("name", .str tag.name) :: Json.optionalText "description" tag.description)

def Document.toJson (document : Document) : Json :=
  .obj [("openapi", .str "3.1.0"),
    ("info", .obj [("title", .str document.title), ("version", .str document.version)]),
    ("paths", .obj (document.paths.map fun (path, item) => (path, item.toJson))),
    ("tags", .arr (document.tags.map Tag.toJson))]

end OpenApi

end ModuleRoutes
