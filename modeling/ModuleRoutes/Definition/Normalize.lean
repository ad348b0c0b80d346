import ModuleRoutes.Definition.Basic
import ModuleRoutes.Fault
import ModuleRoutes.Name.Plural
import ModuleRoutes.Name.Verb

/-!
# Normalized definitions

Normalizing replaces every name of a definition by its token. In resource sections an action named
by an alias of a verb takes the verb's name, if it has the verb's shape and the section does not
declare the verb itself. A fault names the section it was found in; the mount is read first and the
module id last.
-/

namespace ModuleRoutes

namespace Section

/-- The noun of a section in a noun style. -/
def normalNoun (style : NounStyle) (raw : String) : Except InvalidName String :=
  (Name.normalize raw).map fun noun =>
    match style with
    | .asWritten => noun
    | .plural => Name.plural noun

/-- The name of an action among the normalized names of its section. -/
def actionName (slot : Slot) (names : List String) (action : Action) (name : String) : String :=
  if slot.isResource then
    let canonical := Verb.canonicalActionFor name action.method action.needsId
    if canonical ≠ name ∧ canonical ∈ names then name else canonical
  else name

/-- A section with every name normalized. -/
def normalize (style : NounStyle) (part : Section) : Except InvalidName Section := do
  let resourceName ← part.resourceName.mapM (normalNoun style)
  let names ← part.actions.mapM fun action => Name.normalize action.name
  let actions := List.zipWith
    (fun action name => { action with name := actionName part.kind names action name })
    part.actions names
  pure { part with resourceName := resourceName, actions := actions }

end Section

namespace Definition

/-- A definition with every name normalized. -/
def normalize (definition : Definition) : Except Fault Definition := do
  let mount ← (definition.mount.mapM Name.normalizeMount).mapError Fault.invalidName
  let sections ← definition.sections.mapM fun part =>
    (part.normalize definition.nounStyle).mapError fun fault =>
      .inSection part.kind (.invalidName fault)
  let moduleId ← (Name.normalize definition.moduleId).mapError Fault.invalidName
  pure { definition with moduleId := moduleId, mount := mount, sections := sections }

/-- Checks one section against the slots of the sections before it. -/
def checkSlot (seen : List Slot) (part : Section) : Except Fault Unit :=
  if part.kind ∈ seen then .error (.duplicateSection part.kind)
  else
    match part.kind.isResource, part.resourceName with
    | true, none => .error (.missingResourceName part.kind)
    | false, some _ => .error (.convention part.kind "-" .resourceNameMisplaced)
    | _, _ => .ok ()

/-- Checks sections in order, each against the slots before it. -/
def checkSlots (seen : List Slot) : List Section → Except Fault (List Slot)
  | [] => .ok seen
  | part :: parts => do
    checkSlot seen part
    checkSlots (part.kind :: seen) parts

/-- Checks that each slot is filled exactly once, and that resource names stand where they mean
something. -/
def validateSlots (definition : Definition) : Except Fault Unit := do
  let seen ← checkSlots [] definition.sections
  match Slot.all.find? fun slot => slot ∉ seen with
  | some slot => throw (.missingSection slot)
  | none => pure ()

end Definition

end ModuleRoutes
