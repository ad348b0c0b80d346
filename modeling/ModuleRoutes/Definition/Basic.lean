import ModuleRoutes.Method
import ModuleRoutes.Slot

/-!
# Module definitions

A definition describes a module by its sections, each filling one slot with named actions. It is
pure data: `Definition.normalize` gives every name its canonical spelling, and a compiler turns the
result into a table of routes.
-/

namespace ModuleRoutes

/-- How the actions of a resource that address an item locate it: by a path parameter, or by other
means that leave no trace in the path. -/
inductive IdStyle where
  | pathParam
  | queryless
deriving DecidableEq, Repr, Inhabited

namespace IdStyle

def named : List (String × IdStyle) := [("pathParam", .pathParam), ("queryless", .queryless)]

def text : IdStyle → String
  | .pathParam => "pathParam"
  | .queryless => "queryless"

end IdStyle

/-- Whether resource nouns are taken as written or put in the plural. -/
inductive NounStyle where
  | asWritten
  | plural
deriving DecidableEq, Repr, Inhabited

namespace NounStyle

def named : List (String × NounStyle) := [("asWritten", .asWritten), ("plural", .plural)]

def text : NounStyle → String
  | .asWritten => "asWritten"
  | .plural => "plural"

end NounStyle

/-- One action of a section. -/
structure Action where
  name : String
  method : Method
  needsId : Bool
  responseShape : Option String
deriving DecidableEq, Repr, Inhabited

/-- One section of a definition. Only sections in resource slots have a resource name. -/
structure Section where
  kind : Slot
  resourceName : Option String
  idStyle : IdStyle
  actions : List Action
deriving DecidableEq, Repr, Inhabited

/-- The description of a module. -/
structure Definition where
  moduleId : String
  theme : String
  mount : Option String
  nounStyle : NounStyle
  sections : List Section
deriving DecidableEq, Repr, Inhabited

namespace Action

/-- An action on a whole section that declares no shape. -/
def plain (method : Method) (name : String) : Action := ⟨name, method, false, none⟩

/-- An action on one item that declares no shape. -/
def onItem (method : Method) (name : String) : Action := ⟨name, method, true, none⟩

end Action

namespace Definition

def empty (moduleId : String) : Definition := ⟨moduleId, "", none, .asWritten, []⟩

def findSection? (definition : Definition) (slot : Slot) : Option Section :=
  definition.sections.find? fun part => part.kind = slot

/-- The verbs that every resource of the template declares. -/
def templateVerbs : List Action :=
  [.plain .get "list", .onItem .get "detail", .plain .post "create", .onItem .put "update"]

/-- The layout that most modules share: a primary resource with `delete` and `process`, two plain
resources, and a fixed vocabulary for the other slots. -/
def template (moduleId primary secondaryA secondaryB : String) : Definition where
  moduleId := moduleId
  theme := ""
  mount := none
  nounStyle := .asWritten
  sections :=
    [⟨.dashboard, none, .pathParam,
        ["dashboard", "summary", "metrics", "recent", "alerts"].map (.plain .get)⟩,
      ⟨.primaryResource, some primary, .pathParam,
        templateVerbs ++ [.onItem .delete "delete", .onItem .post "process"]⟩,
      ⟨.secondaryResourceA, some secondaryA, .pathParam, templateVerbs⟩,
      ⟨.secondaryResourceB, some secondaryB, .pathParam, templateVerbs⟩,
      ⟨.analytics, none, .pathParam, ["analytics", "overview", "trends"].map (.plain .get)⟩,
      ⟨.settings, none, .pathParam, [.plain .get "get", .plain .put "put"]⟩,
      ⟨.utilities, none, .pathParam,
        [.plain .get "health", .plain .get "export", .plain .post "import", .plain .post "sync"]⟩]

end Definition

end ModuleRoutes
