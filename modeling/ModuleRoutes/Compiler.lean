import ModuleRoutes.Definition.Normalize
import ModuleRoutes.Section.Layout

/-!
# Compiling definitions

A compiler turns a definition into the table of its routes: slot by slot, with no two routes on one
method and path. Its only setting is the path under which modules are mounted that declare no mount.
-/

namespace ModuleRoutes

/-- A compiler of definitions. -/
structure Compiler where
  apiPrefix : String
deriving DecidableEq, Repr

namespace Compiler

/-- The compiler for modules mounted under `/api`. -/
def default : Compiler := ⟨"/api"⟩

/-- The compiler for modules mounted under a path in any spelling: blanks and slashes around it do
not count, and nothing else means the root. -/
def withPrefix (raw : String) : Compiler :=
  let path := Text.stripWhile (· = '/') (Text.trim raw.toList)
  ⟨if path = [] then "" else String.ofList ('/' :: path)⟩

/-- The first two routes on one method and path. `seen` holds the routes before, latest first. -/
def firstCollision? (seen : List Route) : List Route → Option (Route × Route)
  | [] => none
  | route :: routes =>
    match seen.find? fun earlier => earlier.endpoint = route.endpoint with
    | some earlier => some (earlier, route)
    | none => firstCollision? (route :: seen) routes

/-- The routes of a normalized definition in the order of the slots. -/
def slotRoutes (definition : Definition) : Except Fault (List Route) := do
  let blocks ← Slot.all.mapM fun slot =>
    match definition.findSection? slot with
    | some part => part.routes definition.moduleId
    | none => throw (.missingSection slot)
  pure blocks.flatten

def mountOf (compiler : Compiler) (definition : Definition) : String :=
  definition.mount.getD (compiler.apiPrefix ++ "/" ++ definition.moduleId)

/-- The table of a definition, its faults without the module they were found in. -/
def compileBare (compiler : Compiler) (definition : Definition) : Except Fault RouteTable := do
  let normal ← definition.normalize
  normal.validateSlots
  let routes ← slotRoutes normal
  match firstCollision? [] routes with
  | some (first, second) => throw (.routeCollision first second)
  | none => pure ⟨normal.moduleId, normal.theme, compiler.mountOf normal, routes⟩

/-- The name that faults give to the module of a definition. -/
def faultModuleId (definition : Definition) : String :=
  match Name.normalize definition.moduleId with
  | .ok moduleId => moduleId
  | .error _ => definition.moduleId

def compile (compiler : Compiler) (definition : Definition) : Except Fault RouteTable :=
  (compiler.compileBare definition).mapError (Fault.within (faultModuleId definition))

end Compiler

end ModuleRoutes
