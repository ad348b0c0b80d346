import ModuleRoutes.Definition.Basic
import ModuleRoutes.Json.Reader

/-!
# Definitions as data

A definition is read from JSON or TOML field by field. Fields that may be left out have their plain
value; names that are no field are passed over. The written form lists the fields in the order of
the structure and leaves out what is absent.
-/

namespace ModuleRoutes

open Encoding

namespace Action

/-- The fields of an action that have been read so far. -/
structure Draft where
  name : Option String
  method : Option Method
  needsId : Option Bool
  responseShape : Option (Option String)

def reader (format : Format) : RecordReader Draft Action where
  title := "struct ActionSpec"
  fields := [⟨"name", true⟩, ⟨"method", true⟩, ⟨"needsId", false⟩, ⟨"responseShape", false⟩]
  start := ⟨none, none, none, none⟩
  put draft name datum :=
    match name with
    | "name" => do
      let value ← datum.readOnce name draft.name (Datum.readText "a string")
      pure { draft with name := value }
    | "method" => do
      let value ← datum.readOnce name draft.method (Datum.readVariant format Method.named)
      pure { draft with method := value }
    | "needsId" => do
      let value ← datum.readOnce name draft.needsId Datum.readBool
      pure { draft with needsId := value }
    | "responseShape" => do
      let value ← datum.readOnce name draft.responseShape
        (Datum.readOptional (Datum.readText "a string"))
      pure { draft with responseShape := value }
    | _ => pure draft
  finish draft := do
    let name ← required "name" draft.name
    let method ← required "method" draft.method
    pure ⟨name, method, draft.needsId.getD false, draft.responseShape.getD none⟩

def toJson (action : Action) : Json :=
  .obj ([("name", .str action.name), ("method", .str action.method.text),
      ("needsId", .bool action.needsId)]
    ++ Json.optionalText "responseShape" action.responseShape)

end Action

namespace Section

/-- The fields of a section that have been read so far. -/
structure Draft where
  kind : Option Slot
  resourceName : Option (Option String)
  idStyle : Option IdStyle
  actions : Option (List Action)

def reader (format : Format) : RecordReader Draft Section where
  title := "struct SectionSpec"
  fields := [⟨"kind", true⟩, ⟨"resourceName", false⟩, ⟨"idStyle", false⟩, ⟨"actions", true⟩]
  start := ⟨none, none, none, none⟩
  put draft name datum :=
    match name with
    | "kind" => do
      let value ← datum.readOnce name draft.kind (Datum.readVariant format Slot.named)
      pure { draft with kind := value }
    | "resourceName" => do
      let value ← datum.readOnce name draft.resourceName
        (Datum.readOptional (Datum.readText "a string"))
      pure { draft with resourceName := value }
    | "idStyle" => do
      let value ← datum.readOnce name draft.idStyle (Datum.readVariant format IdStyle.named)
      pure { draft with idStyle := value }
    | "actions" => do
      let value ← datum.readOnce name draft.actions
        (Datum.readList ((Action.reader format).read format))
      pure { draft with actions := value }
    | _ => pure draft
  finish draft := do
    let kind ← required "kind" draft.kind
    let actions ← required "actions" draft.actions
    pure ⟨kind, draft.resourceName.getD none, draft.idStyle.getD .pathParam, actions⟩

def toJson (part : Section) : Json :=
  .obj ([("kind", .str part.kind.text)] ++ Json.optionalText "resourceName" part.resourceName
    ++ [("idStyle", .str part.idStyle.text), ("actions", .arr (part.actions.map Action.toJson))])

end Section

namespace Definition

/-- The fields of a definition that have been read so far. -/
structure Draft where
  moduleId : Option String
  theme : Option String
  mount : Option (Option String)
  nounStyle : Option NounStyle
  sections : Option (List Section)

def reader (format : Format) : RecordReader Draft Definition where
  title := "struct ModuleDefinition"
  fields :=
    [⟨"moduleId", true⟩, ⟨"theme", false⟩, ⟨"mount", false⟩, ⟨"nounStyle", false⟩,
      ⟨"sections", true⟩]
  start := ⟨none, none, none, none, none⟩
  put draft name datum :=
    match name with
    | "moduleId" => do
      let value ← datum.readOnce name draft.moduleId (Datum.readText "a string")
      pure { draft with moduleId := value }
    | "theme" => do
      let value ← datum.readOnce name draft.theme (Datum.readText "a string")
      pure { draft with theme := value }
    | "mount" => do
      let value ← datum.readOnce name draft.mount
        (Datum.readOptional (Datum.readText "a string"))
      pure { draft with mount := value }
    | "nounStyle" => do
      let value ← datum.readOnce name draft.nounStyle (Datum.readVariant format NounStyle.named)
      pure { draft with nounStyle := value }
    | "sections" => do
      let value ← datum.readOnce name draft.sections
        (Datum.readList ((Section.reader format).read format))
      pure { draft with sections := value }
    | _ => pure draft
  finish draft := do
    let moduleId ← required "moduleId" draft.moduleId
    let sections ← required "sections" draft.sections
    pure ⟨moduleId, draft.theme.getD "", draft.mount.getD none,
      draft.nounStyle.getD .asWritten, sections⟩

def read (format : Format) (datum : Datum) : Decoded Definition := (reader format).read format datum

def ofJsonText (text : String) : Decoded Definition := Json.decode (read .json) text

def toJson (definition : Definition) : Json :=
  .obj ([("moduleId", .str definition.moduleId), ("theme", .str definition.theme)]
    ++ Json.optionalText "mount" definition.mount
    ++ [("nounStyle", .str definition.nounStyle.text),
      ("sections", .arr (definition.sections.map Section.toJson))])

end Definition

end ModuleRoutes
