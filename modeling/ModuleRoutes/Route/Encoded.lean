import ModuleRoutes.Json.Reader
import ModuleRoutes.Route

/-!
# Routes and tables as data

Routes and tables are written in the order of their fields. A handler key is written as its text,
and a text that is no key is refused with the words of `InvalidKey.message`.
-/

namespace ModuleRoutes

open Encoding

def HandlerKey.read (datum : Datum) : Decoded HandlerKey := do
  let text ← datum.readText "a string"
  match HandlerKey.parse text with
  | .ok key => pure key
  | .error fault => throw (.data (.refused fault.message))

namespace Route

/-- The fields of a route that have been read so far. -/
structure Draft where
  path : Option String
  method : Option Method
  handlerKey : Option HandlerKey
  responseShape : Option (Option String)

def reader (format : Format) : RecordReader Draft Route where
  title := "struct RouteDescriptor"
  fields := [⟨"path", true⟩, ⟨"method", true⟩, ⟨"handlerKey", true⟩, ⟨"responseShape", false⟩]
  start := ⟨none, none, none, none⟩
  put draft name datum :=
    match name with
    | "path" => do
      let value ← datum.readOnce name draft.path (Datum.readText "a string")
      pure { draft with path := value }
    | "method" => do
      let value ← datum.readOnce name draft.method (Datum.readVariant format Method.named)
      pure { draft with method := value }
    | "handlerKey" => do
      let value ← datum.readOnce name draft.handlerKey HandlerKey.read
      pure { draft with handlerKey := value }
    | "responseShape" => do
      let value ← datum.readOnce name draft.responseShape
        (Datum.readOptional (Datum.readText "a string"))
      pure { draft with responseShape := value }
    | _ => pure draft
  finish draft := do
    let path ← required "path" draft.path
    let method ← required "method" draft.method
    let handlerKey ← required "handlerKey" draft.handlerKey
    pure ⟨path, method, handlerKey, draft.responseShape.getD none⟩

def read (format : Format) (datum : Datum) : Decoded Route := (reader format).read format datum

/-- Reads a list of routes from a JSON text. -/
def listOfJsonText (text : String) : Decoded (List Route) :=
  Json.decode (Datum.readList (read .json)) text

def toJson (route : Route) : Json :=
  .obj ([("path", .str route.path), ("method", .str route.method.text),
      ("handlerKey", .str route.handlerKey.text)]
    ++ Json.optionalText "responseShape" route.responseShape)

end Route

namespace RouteTable

/-- The fields of a table that have been read so far. -/
structure Draft where
  moduleId : Option String
  theme : Option String
  mount : Option String
  routes : Option (List Route)

def reader (format : Format) : RecordReader Draft RouteTable where
  title := "struct RouteTable"
  fields := [⟨"moduleId", true⟩, ⟨"theme", true⟩, ⟨"mount", true⟩, ⟨"routes", true⟩]
  start := ⟨none, none, none, none⟩
  put draft name datum :=
    match name with
    | "moduleId" => do
      let value ← datum.readOnce name draft.moduleId (Datum.readText "a string")
      pure { draft with moduleId := value }
    | "theme" => do
      let value ← datum.readOnce name draft.theme (Datum.readText "a string")
      pure { draft with theme := value }
    | "mount" => do
      let value ← datum.readOnce name draft.mount (Datum.readText "a string")
      pure { draft with mount := value }
    | "routes" => do
      let value ← datum.readOnce name draft.routes (Datum.readList (Route.read format))
      pure { draft with routes := value }
    | _ => pure draft
  finish draft := do
    let moduleId ← required "moduleId" draft.moduleId
    let theme ← required "theme" draft.theme
    let mount ← required "mount" draft.mount
    let routes ← required "routes" draft.routes
    pure ⟨moduleId, theme, mount, routes⟩

def read (format : Format) (datum : Datum) : Decoded RouteTable := (reader format).read format datum

def ofJsonText (text : String) : Decoded RouteTable := Json.decode (read .json) text

def toJson (table : RouteTable) : Json :=
  .obj [("moduleId", .str table.moduleId), ("theme", .str table.theme),
    ("mount", .str table.mount), ("routes", .arr (table.routes.map Route.toJson))]

end RouteTable

end ModuleRoutes
