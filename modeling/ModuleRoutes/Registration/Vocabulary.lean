import ModuleRoutes.Definition.Normalize
import ModuleRoutes.Registration.Line

/-!
# The names that observed routes take

The handler key of an observed route comes from the section and action that its stub names, or else
from the shape of its path. Either way the definition says which nouns are resources and what the
actions on the root paths are called.
-/

namespace ModuleRoutes

namespace Registration

/-- What a definition says about the names of observed routes. -/
structure Vocabulary where
  moduleId : String
  nouns : List String
  dashboardRoot : String
  analyticsRoot : String
  settings : List String
deriving DecidableEq, Repr

/-- Whether a segment of an observed path is a parameter. -/
def isPathParameter (part : String) : Bool := part.toList.head? = some ':'

namespace Vocabulary

/-- The name of the first action of a slot. -/
def rootAction (definition : Definition) (slot : Slot) (otherwise : String) : String :=
  match (definition.findSection? slot).bind fun part => part.actions.head? with
  | some action => action.name
  | none => otherwise

/-- The vocabulary of a definition; of the definition as it is written when it cannot be
normalized. -/
def ofDefinition (definition : Definition) : Vocabulary :=
  let normal := match definition.normalize with
    | .ok normal => normal
    | .error _ => definition
  { moduleId := normal.moduleId
    nouns := normal.sections.filterMap Section.resourceName
    dashboardRoot := rootAction normal .dashboard "dashboard"
    analyticsRoot := rootAction normal .analytics "analytics"
    settings :=
      match normal.findSection? .settings with
      | some part => part.actions.map Action.name
      | none => ["get", "put"] }

/-- A key of a section that is no resource. -/
def plainKey (words : Vocabulary) (kind : Kind) (action : String) : HandlerKey :=
  ⟨words.moduleId, kind, none, action⟩

/-- A key of a resource. -/
def nounKey (words : Vocabulary) (noun action : String) : HandlerKey :=
  ⟨words.moduleId, .resource, some noun, action⟩

/-- The key of a settings route: `GET` and `PUT` stand for the two declared actions. -/
def settingsKey (words : Vocabulary) (method : Method) (otherwise : String) : HandlerKey :=
  let declared :=
    match method with
    | .get => words.settings[0]?
    | .put => words.settings[1]?
    | _ => none
  words.plainKey .settings (declared.getD otherwise)

/-- The key that a stub names. -/
def keyOfLabel? (words : Vocabulary) (method : Method) (label : StubLabel) :
    Option HandlerKey := do
  let part ← (Name.normalize label.part).toOption
  let action ← (Name.normalize label.action).toOption
  pure (match part with
    | "dashboard" => words.plainKey .dashboard action
    | "analytics" => words.plainKey .analytics action
    | "utilities" => words.plainKey .utilities action
    | "settings" => words.settingsKey method action
    | noun => words.nounKey noun action)

/-- The key of a resource route whose action is written in any spelling. -/
def spelledKey? (words : Vocabulary) (noun action : String) : Option HandlerKey :=
  (Name.normalize action).toOption.map (words.nounKey noun)

/-- The action of a route on the path of a resource. -/
def collectionAction : Method → String
  | .get => "list"
  | .post => "create"
  | other => other.lowerText

/-- The action of a route on the path of one item. -/
def itemAction : Method → String
  | .get => "detail"
  | .put | .patch => "update"
  | .delete => "delete"
  | .post => Method.lowerText .post

/-- The key of a route below the path of a resource. -/
def keyBelowNoun? (words : Vocabulary) (method : Method) (noun : String) :
    List String → Option HandlerKey
  | [] => words.spelledKey? noun (collectionAction method)
  | first :: rest =>
    if isPathParameter first then
      match rest with
      | [] => words.spelledKey? noun (itemAction method)
      | [action] => words.spelledKey? noun action
      | _ => none
    else if first = "detail" then words.spelledKey? noun "detail"
    else
      match rest with
      | [] | [_] => words.spelledKey? noun first
      | _ => none

/-- The key of a route that is on no root path and below no resource: a utility. -/
def utilityKey? (words : Vocabulary) : List String → Option HandlerKey
  | [action] => if isPathParameter action then none else some (words.plainKey .utilities action)
  | _ => none

/-- The key that the shape of a path suggests. -/
def keyOfPath? (words : Vocabulary) (method : Method) (path : String) : Option HandlerKey :=
  match Text.segments '/' path with
  | ["dashboard"] => some (words.plainKey .dashboard words.dashboardRoot)
  | ["dashboard", action] => some (words.plainKey .dashboard action)
  | ["analytics"] => some (words.plainKey .analytics words.analyticsRoot)
  | ["analytics", action] => some (words.plainKey .analytics action)
  | ["settings"] => some (words.settingsKey method method.lowerText)
  | noun :: rest =>
    if noun ∈ words.nouns then words.keyBelowNoun? method noun rest
    else words.utilityKey? (noun :: rest)
  | [] => none

end Vocabulary

end Registration

end ModuleRoutes
