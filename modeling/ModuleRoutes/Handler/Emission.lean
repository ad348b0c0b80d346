import ModuleRoutes.Fault
import ModuleRoutes.Handler.Binding

/-!
# Emitted modules

Emitting a table binds each of its routes to a handler. It succeeds for all routes or not at all; a
failure lists every key without a handler, in order and once.
-/

namespace ModuleRoutes

/-- A route with its handler. -/
structure EmittedRoute where
  method : Method
  path : String
  handlerKey : HandlerKey
  handler : Handler

/-- A module whose routes all have handlers. -/
structure EmittedModule where
  moduleId : String
  mount : String
  routes : List EmittedRoute

namespace RouteTable

/-- The keys of a table that a binding has no handler for, in order and once. -/
def unboundKeys (table : RouteTable) (binding : Binding) : List HandlerKey :=
  HandlerKey.sortedDistinct (table.handlerKeys.filter fun key => !binding.contains key)

/-- The module that a table and a binding make. -/
def emit (table : RouteTable) (binding : Binding) : Except Fault EmittedModule :=
  match table.unboundKeys binding with
  | [] =>
    .ok
      { moduleId := table.moduleId
        mount := table.mount
        routes := table.routes.filterMap fun route =>
          (binding.get? route.handlerKey).map fun handler =>
            ⟨route.method, route.path, route.handlerKey, handler⟩ }
  | keys => .error (.unboundHandler table.moduleId keys)

end RouteTable

namespace EmittedRoute

/-- The written form of a route, without its handler. -/
def toJson (route : EmittedRoute) : Json :=
  .obj [("method", .str route.method.text), ("path", .str route.path),
    ("handlerKey", .str route.handlerKey.text)]

end EmittedRoute

end ModuleRoutes
