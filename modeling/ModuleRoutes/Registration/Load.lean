import ModuleRoutes.Fault
import ModuleRoutes.Files.Store
import ModuleRoutes.Registration.Extract
import ModuleRoutes.Route.Encoded

/-!
# Observed routes in files

Observed routes are a JSON list, or are taken from a router source. The extension says which.
-/

namespace ModuleRoutes

open Files

namespace Registration

/-- The routes that a file's text holds. -/
def ofFileText (path text : String) (definition : Definition) : Except Fault (List Route) :=
  match extension? path with
  | some "json" => (Route.listOfJsonText text).mapError Fault.json
  | some "ts" | some "js" => .ok (extract text definition)
  | _ => .error (.unsupportedFormat path)

/-- Loads the observed routes of a module from a file. -/
def load {m : Type → Type} [Monad m] [Store m] (path : String) (definition : Definition) :
    m (Except Fault (List Route)) := do
  match ← Store.readText path with
  | .ok text => pure (ofFileText path text definition)
  | .error fault => pure (.error (.file fault))

end Registration

end ModuleRoutes
