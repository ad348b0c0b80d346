import ModuleRoutes.Json.Value

/-!
# Handlers

A handler answers a request with a JSON value or refuses it. The request is one JSON object,
whatever parts of an HTTP request it was put together from.
-/

namespace ModuleRoutes

/-- Why a handler refuses a request. -/
inductive HandlerFault where
  | badRequest (detail : String)
  | notFound (detail : String)
  | internal (detail : String)
deriving DecidableEq, Repr

namespace HandlerFault

def message : HandlerFault → String
  | .badRequest detail => "bad request: " ++ detail
  | .notFound detail => "not found: " ++ detail
  | .internal detail => "internal error: " ++ detail

/-- The status that reports the refusal. -/
def status : HandlerFault → Nat
  | .badRequest _ => 400
  | .notFound _ => 404
  | .internal _ => 500

end HandlerFault

/-- What answers the requests of a route. -/
abbrev Handler := Json → Except HandlerFault Json

namespace Handler

/-- The handler that gives every request the same answer. -/
def constant (answer : Json) : Handler := fun _ => .ok answer

/-- The handler that answers with the request itself. -/
def echo : Handler := .ok

/-- The handler that refuses every request. -/
def refuse (fault : HandlerFault) : Handler := fun _ => .error fault

end Handler

end ModuleRoutes
