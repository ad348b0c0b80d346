import ModuleRoutes.HandlerKey
import ModuleRoutes.Method

/-!
# Routes and route tables

A route is one endpoint of a module: a path relative to the module's mount, in which `:id` stands
for an item, a method, the key of its handler and the name of the shape it answers with. A table
holds the routes of a module in order.
-/

namespace ModuleRoutes

/-- One endpoint of a module. -/
structure Route where
  path : String
  method : Method
  handlerKey : HandlerKey
  responseShape : Option String
deriving DecidableEq, Repr, Inhabited

/-- The width that listings give to paths. -/
def pathWidth : Nat := 36

namespace Route

/-- A route in one line. -/
def text (route : Route) : String :=
  route.method.text ++ " " ++ Text.padRight pathWidth route.path ++ " -> " ++ route.handlerKey.text

/-- The method and the path that a request has to match. -/
def endpoint (route : Route) : String × Method := (route.path, route.method)

end Route

/-- The routes of a module with its id, theme and mount. -/
structure RouteTable where
  moduleId : String
  theme : String
  mount : String
  routes : List Route
deriving DecidableEq, Repr, Inhabited

namespace RouteTable

/-- The first route with a method and a path. -/
def find? (table : RouteTable) (method : Method) (path : String) : Option Route :=
  table.routes.find? fun route => route.method = method && route.path = path

def handlerKeys (table : RouteTable) : List HandlerKey := table.routes.map Route.handlerKey

/-- The lines of a listing: a heading and one line for each route. -/
def lines (table : RouteTable) : List String :=
  (table.moduleId ++ " (" ++ toString table.routes.length ++ " routes, mounted at " ++ table.mount
    ++ ")") :: table.routes.map fun route => "  " ++ route.text

/-- The listing of a table, each line ended. -/
def text (table : RouteTable) : String := String.join (table.lines.map (· ++ "\n"))

end RouteTable

end ModuleRoutes
