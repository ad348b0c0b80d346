import ModuleRoutes.Definition.Basic
import ModuleRoutes.Fault
import ModuleRoutes.Name.Verb

/-!
# The routes of a section

Each kind of section has its own layout. A dashboard and analytics sit on a root path with their
other actions below it, settings on one path with two methods, utilities at the module's root. A
resource lists the verbs it declares first, each on its fixed path, and then its other actions as
authored. Sections are expected to be normalized.
-/

namespace ModuleRoutes

namespace Section

def breach {α : Type} (part : Section) (action : String) (reason : Breach) : Except Fault α :=
  .error (.convention part.kind action reason)

/-- Checks that a section declares as many actions as its slot has room for. -/
def expectArity (part : Section) : Except Fault Unit :=
  if part.actions.length = part.kind.arity then .ok ()
  else .error (.arity part.kind part.kind.arity part.actions.length)

/-- The first name that an earlier one repeats. -/
def firstRepeat? (seen : List String) : List String → Option String
  | [] => none
  | name :: names => if name ∈ seen then some name else firstRepeat? (name :: seen) names

def expectUniqueNames (part : Section) : Except Fault Unit :=
  match firstRepeat? [] (part.actions.map Action.name) with
  | some name => .error (.duplicateAction part.kind name)
  | none => .ok ()

/-- Checks that an action does not address an item. -/
def rejectItem (part : Section) (action : Action) : Except Fault Unit :=
  if action.needsId then part.breach action.name (.itemAddressed part.kind.kind) else .ok ()

def route (moduleId : String) (part : Section) (action : Action) (path : String) : Route where
  path := path
  method := action.method
  handlerKey := ⟨moduleId, part.kind.kind, part.resourceName, action.name⟩
  responseShape := action.responseShape

/-- The first item made by one function, the others by another. -/
def mapHead {α β : Type} (first rest : α → β) : List α → List β
  | [] => []
  | item :: items => first item :: items.map rest

def dashboardCheck (part : Section) (action : Action) : Except Fault Unit :=
  if action.method = .get then .ok ()
  else part.breach action.name (.dashboardWrites action.method)

/-- The routes of a section with a root path: the first action on the root, the others below. -/
def anchoredRoutes (moduleId : String) (part : Section) (root : String)
    (check : Action → Except Fault Unit) : Except Fault (List Route) := do
  part.expectArity
  part.expectUniqueNames
  part.actions.forM fun action => do
    check action
    part.rejectItem action
  pure (mapHead (fun action => part.route moduleId action root)
    (fun action => part.route moduleId action (root ++ "/" ++ action.name)) part.actions)

/-- The methods of the two settings actions. -/
def settingsMethods : List Method := [.get, .put]

/-- The name of the first action whose method is not the one of its place. -/
def offender? (actions : List Action) : Option String :=
  ((actions.zip settingsMethods).find? fun pair => pair.1.method ≠ pair.2).map fun pair =>
    pair.1.name

/-- The routes of a settings section: reading and writing on one path. -/
def settingsRoutes (moduleId : String) (part : Section) : Except Fault (List Route) := do
  part.expectArity
  part.expectUniqueNames
  if part.actions.map Action.method ≠ settingsMethods then
    part.breach ((offender? part.actions).getD "-") .settingsPair
  part.actions.forM part.rejectItem
  pure (part.actions.map fun action => part.route moduleId action "/settings")

/-- The routes of a utilities section: one path for each action. -/
def utilityRoutes (moduleId : String) (part : Section) : Except Fault (List Route) := do
  part.expectArity
  part.expectUniqueNames
  part.actions.forM part.rejectItem
  pure (part.actions.map fun action => part.route moduleId action ("/" ++ action.name))

/-- The verbs that a primary resource has to declare. -/
def primaryVerbs : List Verb := [.list, .detail, .create, .update]

/-- The action of a section with a verb's name. -/
def actionFor? (part : Section) (verb : Verb) : Option Action :=
  part.actions.find? fun action => action.name = verb.text

/-- Checks that a primary resource declares what it has to. -/
def expectPrimaryVerbs (part : Section) : Except Fault Unit :=
  if part.kind = .primaryResource then
    match primaryVerbs.find? fun verb => (part.actionFor? verb).isNone with
    | some verb => part.breach verb.text .verbsMissing
    | none => .ok ()
  else .ok ()

/-- Checks that an action named by a verb has the verb's method and addressing. -/
def expectShape (part : Section) (verb : Verb) (action : Action) : Except Fault Unit :=
  if action.method ≠ verb.method then
    part.breach action.name (.verbMethod action.name verb.method action.method)
  else if action.needsId = verb.needsId then .ok ()
  else if verb.needsId then part.breach action.name (.verbNeedsId action.name)
  else part.breach action.name (.verbOnCollection action.name)

/-- The path of the action named by a verb below the path of its resource. -/
def verbPath (style : IdStyle) (base : String) : String → String
  | "list" | "create" => base
  | name =>
    match style with
    | .pathParam => base ++ "/:id"
    | .queryless => base ++ "/" ++ name

/-- The path of an action that is no verb below the path of its resource. -/
def customPath (style : IdStyle) (base : String) (action : Action) : String :=
  if action.needsId ∧ style = .pathParam then base ++ "/:id/" ++ action.name
  else base ++ "/" ++ action.name

/-- The routes of the verbs that a resource declares. -/
def verbRoutes (moduleId : String) (part : Section) (base : String) : Except Fault (List Route) :=
  (Verb.all.filterMap fun verb => (part.actionFor? verb).map fun action => (verb, action)).mapM
    fun (verb, action) => do
      part.expectShape verb action
      pure (part.route moduleId action (verbPath part.idStyle base verb.text))

/-- The routes of the actions of a resource that are no verbs. -/
def customRoutes (moduleId : String) (part : Section) (base : String) : List Route :=
  (part.actions.filter fun action => !Verb.isVerb action.name).map fun action =>
    part.route moduleId action (customPath part.idStyle base action)

def resourceRoutes (moduleId : String) (part : Section) : Except Fault (List Route) := do
  part.expectArity
  part.expectUniqueNames
  let noun ←
    match part.resourceName with
    | some noun => pure noun
    | none => throw (.missingResourceName part.kind)
  part.expectPrimaryVerbs
  let verbs ← part.verbRoutes moduleId ("/" ++ noun)
  pure (verbs ++ part.customRoutes moduleId ("/" ++ noun))

/-- The routes of a section. `PATCH` is refused before anything else is looked at. -/
def routes (moduleId : String) (part : Section) : Except Fault (List Route) :=
  match part.actions.find? fun action => action.method = .patch with
  | some action => part.breach action.name .patchUsed
  | none =>
    match part.kind.kind with
    | .dashboard => part.anchoredRoutes moduleId "/dashboard" part.dashboardCheck
    | .resource => part.resourceRoutes moduleId
    | .analytics => part.anchoredRoutes moduleId "/analytics" fun _ => .ok ()
    | .settings => part.settingsRoutes moduleId
    | .utilities => part.utilityRoutes moduleId

end Section

end ModuleRoutes
