import ModuleRoutes.Definition.TomlText
import ModuleRoutes.Fault
import ModuleRoutes.Files.Store

/-!
# Definitions in files

A definition file is read in the format that its extension names. The file is read before the
extension is looked at, so that a file that is not there is reported as such.
-/

namespace ModuleRoutes

open Files

namespace Definition

/-- The definition that a file's text holds, in the format of its extension. -/
def ofFileText (path text : String) : Except Fault Definition :=
  match extension? path with
  | some "toml" => (ofTomlText text).mapError Fault.toml
  | some "json" => (ofJsonText text).mapError Fault.json
  | _ => .error (.unsupportedFormat path)

def load {m : Type → Type} [Monad m] [Store m] (path : String) : m (Except Fault Definition) := do
  match ← Store.readText path with
  | .ok text => pure (ofFileText path text)
  | .error fault => pure (.error (.file fault))

/-- Whether a file is a definition by its extension. -/
def isDefinitionPath (path : String) : Bool :=
  extension? path = some "toml" || extension? path = some "json"

end Definition

end ModuleRoutes
