import ModuleRoutes.Encoding.Message
import ModuleRoutes.Files.Fault
import ModuleRoutes.Name.Basic
import ModuleRoutes.Route

/-!
# Faults

Everything that can keep a definition from becoming a table, a table from being bound or served, and
a file from being read, with the words for it. `Fault.root` looks through the two wrappers that say
in which module and in which section a fault was found.
-/

namespace ModuleRoutes

/-- A convention that an action breaks. -/
inductive Breach where
  | resourceNameMisplaced
  | patchUsed
  | dashboardWrites (found : Method)
  | itemAddressed (kind : Kind)
  | verbsMissing
  | verbMethod (verb : String) (wanted found : Method)
  | verbNeedsId (verb : String)
  | verbOnCollection (verb : String)
  | settingsPair
deriving DecidableEq, Repr

namespace Breach

def message : Breach → String
  | .resourceNameMisplaced => "resourceName is only valid on resource sections"
  | .patchUsed => "PATCH is not a generated method; use PUT"
  | .dashboardWrites found => "dashboard routes are GET-only, found " ++ found.text
  | .itemAddressed kind => kind.text ++ " routes cannot address an item"
  | .verbsMissing => "primary resource must declare list, detail, create and update"
  | .verbMethod verb wanted found =>
    "`" ++ verb ++ "` must use " ++ wanted.text ++ ", found " ++ found.text
  | .verbNeedsId verb => "`" ++ verb ++ "` addresses an item and must set needsId"
  | .verbOnCollection verb => "`" ++ verb ++ "` operates on the collection and cannot set needsId"
  | .settingsPair => "settings must be exactly GET /settings then PUT /settings"

end Breach

/-- Why a definition, a table, a set of modules or a file was refused. -/
inductive Fault where
  | invalidName (fault : InvalidName)
  | arity (slot : Slot) (expected found : Nat)
  | missingSection (slot : Slot)
  | duplicateSection (slot : Slot)
  | missingResourceName (slot : Slot)
  | duplicateAction (slot : Slot) (action : String)
  | convention (slot : Slot) (action : String) (breach : Breach)
  | routeCollision (first second : Route)
  | unboundHandler (moduleId : String) (keys : List HandlerKey)
  | inSection (slot : Slot) (source : Fault)
  | inModule (moduleId : String) (source : Fault)
  | duplicateMount (mount : String)
  | invalidHandlerKey (fault : InvalidKey)
  | unsupportedFormat (path : String)
  | file (fault : FileFault)
  | json (fault : Encoding.DecodeFault)
  | toml (fault : Encoding.DecodeFault)
deriving DecidableEq, Repr

namespace Fault

/-- What is wrong with encoded data, in words. -/
def decodeText (format : Encoding.Format) : Encoding.DecodeFault → String
  | .syntaxFault =>
    match format with
    | .json => "malformed JSON"
    | .toml => "malformed TOML"
  | .data mismatch => mismatch.message format

def message : Fault → String
  | .invalidName fault => fault.message
  | .arity slot expected found =>
    slot.text ++ " section expects " ++ toString expected ++ " actions, found " ++ toString found
  | .missingSection slot => "missing " ++ slot.text ++ " section"
  | .duplicateSection slot => slot.text ++ " section declared more than once"
  | .missingResourceName slot => slot.text ++ " section requires a resourceName"
  | .duplicateAction slot action =>
    slot.text ++ " section declares action `" ++ action ++ "` more than once"
  | .convention slot action breach =>
    slot.text ++ " section, action `" ++ action ++ "`: " ++ breach.message
  | .routeCollision first second =>
    "route collision on " ++ first.method.text ++ " " ++ first.path ++ ": `"
      ++ first.handlerKey.text ++ "` and `" ++ second.handlerKey.text ++ "`"
  | .unboundHandler moduleId keys =>
    "module `" ++ moduleId ++ "` has " ++ toString keys.length ++ " unbound handler(s): "
      ++ Text.joined ", " (keys.map HandlerKey.text)
  | .inSection slot source => slot.text ++ " section: " ++ source.message
  | .inModule moduleId source => "module `" ++ moduleId ++ "`: " ++ source.message
  | .duplicateMount mount => "two emitted modules share the mount `" ++ mount ++ "`"
  | .invalidHandlerKey fault => fault.message
  | .unsupportedFormat path => "unsupported definition format: " ++ path
  | .file fault => "IO Error: " ++ fault.message
  | .json fault => "SerdeJson Error: " ++ decodeText .json fault
  | .toml fault => "Toml Error: " ++ decodeText .toml fault

/-- The innermost fault, within the wrappers of its section and module. -/
def root : Fault → Fault
  | .inSection _ source => source.root
  | .inModule _ source => source.root
  | fault => fault

/-- A fault with the module it was found in, unless it names its module already. -/
def within (moduleId : String) : Fault → Fault
  | .inModule other source => .inModule other source
  | .unboundHandler other keys => .unboundHandler other keys
  | fault => .inModule moduleId fault

/-- A fault and its causes, from the outside in, each in words. -/
def chain : Fault → List String
  | .inSection slot source => (Fault.inSection slot source).message :: source.chain
  | .inModule moduleId source => (Fault.inModule moduleId source).message :: source.chain
  | .file fault => [(Fault.file fault).message, fault.message]
  | .json fault => [(Fault.json fault).message, decodeText .json fault]
  | .toml fault => [(Fault.toml fault).message, decodeText .toml fault]
  | fault => [fault.message]

end Fault

end ModuleRoutes
