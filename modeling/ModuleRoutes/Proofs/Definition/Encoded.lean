import ModuleRoutes.Definition.Encoded
import ModuleRoutes.Proofs.Encoding.Records
import ModuleRoutes.Proofs.Json.RoundTrip

/-!
# Definitions as data

A definition is read back from its data in either format, in whatever order the format lists the
fields (`ModuleRoutes.Definition.read_toDatum`, `ModuleRoutes.Definition.read_tomlData`), and so it
is from its JSON text (`ModuleRoutes.Definition.ofJsonText_write`). What one field does to a draft
is said once for both formats.
-/

namespace ModuleRoutes

open Encoding RecordReader

namespace Action

variable {format : Format} {name : Option String} {method : Option Method} {needsId : Option Bool}
  {shape : Option (Option String)}

theorem takeField_name (text : String) :
    (reader format).takeField ⟨none, method, needsId, shape⟩ (some "name", .text text) =
      .ok ⟨some text, method, needsId, shape⟩ :=
  rfl

theorem takeField_method (chosen : Method) :
    (reader format).takeField ⟨name, none, needsId, shape⟩ (some "method", .text chosen.text) =
      .ok ⟨name, some chosen, needsId, shape⟩ := by
  cases chosen <;> rfl

theorem takeField_needsId (answer : Bool) :
    (reader format).takeField ⟨name, method, none, shape⟩ (some "needsId", .bool answer) =
      .ok ⟨name, method, some answer, shape⟩ :=
  rfl

theorem takes_responseShape (text : Option String) :
    (reader format).Takes ⟨name, method, needsId, none⟩ (optionalField "responseShape" text)
      ⟨name, method, needsId, text.map some⟩ := by
  cases text <;> rfl

/-- The fields of an action in ascending order. -/
def tomlData (action : Action) : List (Option String × Datum) :=
  [(some "method", .text action.method.text), (some "name", .text action.name),
      (some "needsId", .bool action.needsId)] ++
    optionalField "responseShape" action.responseShape

theorem finish_draft (action : Action) :
    (reader format).finish ⟨some action.name, some action.method, some action.needsId,
      action.responseShape.map some⟩ = .ok action := by
  obtain ⟨_, _, _, shape⟩ := action
  cases shape <;> rfl

theorem read_tomlData (action : Action) :
    (reader .toml).read .toml (.record action.tomlData true) = .ok action :=
  read_of_takes (.append (.cons (takeField_method _) (.cons (takeField_name _)
    (.cons (takeField_needsId _) (.nil _)))) (takes_responseShape _)) (finish_draft action)

theorem toDatum_toJson (action : Action) :
    action.toJson.toDatum = .record
      ([(some "name", .text action.name), (some "method", .text action.method.text),
          (some "needsId", .bool action.needsId)] ++
        optionalField "responseShape" action.responseShape) true := by
  rw [toJson, Json.toDatum_obj, Json.fieldData_append, Json.fieldData_optionalText]
  rfl

theorem read_toDatum (action : Action) :
    (reader .json).read .json action.toJson.toDatum = .ok action := by
  rw [toDatum_toJson]
  exact read_of_takes (.append (.cons (takeField_name _) (.cons (takeField_method _)
    (.cons (takeField_needsId _) (.nil _)))) (takes_responseShape _)) (finish_draft action)

theorem numberFree_toJson (action : Action) : action.toJson.numberFree = true := by
  rw [toJson, Json.numberFree, Json.fieldsNumberFree_append, Json.fieldsNumberFree_optionalText]
  rfl

end Action

namespace Section

variable {format : Format} {kind : Option Slot} {noun : Option (Option String)}
  {idStyle : Option IdStyle} {actions : Option (List Action)}

theorem takeField_kind (slot : Slot) :
    (reader format).takeField ⟨none, noun, idStyle, actions⟩ (some "kind", .text slot.text) =
      .ok ⟨some slot, noun, idStyle, actions⟩ := by
  cases slot <;> rfl

theorem takes_resourceName (text : Option String) :
    (reader format).Takes ⟨kind, none, idStyle, actions⟩ (optionalField "resourceName" text)
      ⟨kind, text.map some, idStyle, actions⟩ := by
  cases text <;> rfl

theorem takeField_idStyle (style : IdStyle) :
    (reader format).takeField ⟨kind, noun, none, actions⟩ (some "idStyle", .text style.text) =
      .ok ⟨kind, noun, some style, actions⟩ := by
  cases style <;> rfl

theorem takeField_actions {datum : Datum} {list : List Action}
    (reads : Datum.readList ((Action.reader format).read format) datum = .ok list) :
    (reader format).takeField ⟨kind, noun, idStyle, none⟩ (some "actions", datum) =
      .ok ⟨kind, noun, idStyle, some list⟩ := by
  have known : (reader format).knows "actions" = true := by cases format <;> decide
  rw [takeField, if_pos known]
  simp only [reader, Datum.readOnce, reads]
  rfl

theorem finish_draft (part : Section) :
    (reader format).finish ⟨some part.kind, part.resourceName.map some, some part.idStyle,
      some part.actions⟩ = .ok part := by
  obtain ⟨_, noun, _, _⟩ := part
  cases noun <;> rfl

/-- The fields of a section in ascending order. -/
def tomlData (part : Section) : List (Option String × Datum) :=
  [(some "actions", .list (part.actions.map fun action => .record action.tomlData true) true),
      (some "idStyle", .text part.idStyle.text), (some "kind", .text part.kind.text)] ++
    optionalField "resourceName" part.resourceName

theorem read_tomlData (part : Section) :
    (reader .toml).read .toml (.record part.tomlData true) = .ok part :=
  read_of_takes (.append
    (.cons (takeField_actions (Datum.readList_map fun action _ => Action.read_tomlData action))
      (.cons (takeField_idStyle _) (.cons (takeField_kind _) (.nil _)))) (takes_resourceName _))
    (finish_draft part)

theorem toDatum_toJson (part : Section) :
    part.toJson.toDatum = .record
      ([(some "kind", .text part.kind.text)] ++ optionalField "resourceName" part.resourceName ++
        [(some "idStyle", .text part.idStyle.text),
          (some "actions",
            .list (part.actions.map fun action => action.toJson.toDatum) true)]) true := by
  rw [← Json.toDatum_arr_map, toJson, Json.toDatum_obj, Json.fieldData_append,
    Json.fieldData_append, Json.fieldData_optionalText]
  rfl

theorem read_toDatum (part : Section) :
    (reader .json).read .json part.toJson.toDatum = .ok part := by
  have actions := Datum.readList_map fun action (_ : action ∈ part.actions) =>
    Action.read_toDatum action
  rw [toDatum_toJson]
  exact read_of_takes (.append (.append (.cons (takeField_kind _) (.nil _)) (takes_resourceName _))
    (.cons (takeField_idStyle _) (.cons (takeField_actions actions) (.nil _)))) (finish_draft part)

theorem numberFree_toJson (part : Section) : part.toJson.numberFree = true := by
  have actions := Json.itemsNumberFree_map Action.numberFree_toJson part.actions
  simp only [toJson, Json.numberFree, Json.fieldsNumberFree_append,
    Json.fieldsNumberFree_optionalText, Json.fieldsNumberFree, actions, Bool.and_true]

end Section

namespace Definition

variable {format : Format} {moduleId : Option String} {theme : Option String}
  {mount : Option (Option String)} {nounStyle : Option NounStyle} {sections : Option (List Section)}

theorem takeField_moduleId (text : String) :
    (reader format).takeField ⟨none, theme, mount, nounStyle, sections⟩
        (some "moduleId", .text text) =
      .ok ⟨some text, theme, mount, nounStyle, sections⟩ :=
  rfl

theorem takeField_theme (text : String) :
    (reader format).takeField ⟨moduleId, none, mount, nounStyle, sections⟩
        (some "theme", .text text) =
      .ok ⟨moduleId, some text, mount, nounStyle, sections⟩ :=
  rfl

theorem takes_mount (text : Option String) :
    (reader format).Takes ⟨moduleId, theme, none, nounStyle, sections⟩ (optionalField "mount" text)
      ⟨moduleId, theme, text.map some, nounStyle, sections⟩ := by
  cases text <;> rfl

theorem takeField_nounStyle (style : NounStyle) :
    (reader format).takeField ⟨moduleId, theme, mount, none, sections⟩
        (some "nounStyle", .text style.text) =
      .ok ⟨moduleId, theme, mount, some style, sections⟩ := by
  cases style <;> rfl

theorem takeField_sections {datum : Datum} {list : List Section}
    (reads : Datum.readList ((Section.reader format).read format) datum = .ok list) :
    (reader format).takeField ⟨moduleId, theme, mount, nounStyle, none⟩ (some "sections", datum) =
      .ok ⟨moduleId, theme, mount, nounStyle, some list⟩ := by
  have known : (reader format).knows "sections" = true := by cases format <;> decide
  rw [takeField, if_pos known]
  simp only [reader, Datum.readOnce, reads]
  rfl

theorem finish_draft (definition : Definition) :
    (reader format).finish ⟨some definition.moduleId, some definition.theme,
      definition.mount.map some, some definition.nounStyle, some definition.sections⟩ =
        .ok definition := by
  obtain ⟨_, _, mount, _, _⟩ := definition
  cases mount <;> rfl

/-- The fields of a definition in ascending order. -/
def tomlData (definition : Definition) : List (Option String × Datum) :=
  [(some "moduleId", .text definition.moduleId)] ++ optionalField "mount" definition.mount ++
    [(some "nounStyle", .text definition.nounStyle.text),
      (some "sections",
        .list (definition.sections.map fun part => .record part.tomlData true) true),
      (some "theme", .text definition.theme)]

theorem read_tomlData (definition : Definition) :
    read .toml (.record definition.tomlData true) = .ok definition := by
  have sections := Datum.readList_map fun part (_ : part ∈ definition.sections) =>
    Section.read_tomlData part
  exact read_of_takes (.append (.append (.cons (takeField_moduleId _) (.nil _)) (takes_mount _))
    (.cons (takeField_nounStyle _) (.cons (takeField_sections sections)
      (.cons (takeField_theme _) (.nil _))))) (finish_draft definition)

theorem toDatum_toJson (definition : Definition) :
    definition.toJson.toDatum = .record
      ([(some "moduleId", .text definition.moduleId), (some "theme", .text definition.theme)] ++
        optionalField "mount" definition.mount ++
        [(some "nounStyle", .text definition.nounStyle.text),
          (some "sections",
            .list (definition.sections.map fun part => part.toJson.toDatum) true)]) true := by
  rw [← Json.toDatum_arr_map, toJson, Json.toDatum_obj, Json.fieldData_append,
    Json.fieldData_append, Json.fieldData_optionalText]
  rfl

theorem read_toDatum (definition : Definition) :
    read .json definition.toJson.toDatum = .ok definition := by
  have sections := Datum.readList_map fun part (_ : part ∈ definition.sections) =>
    Section.read_toDatum part
  rw [toDatum_toJson]
  exact read_of_takes (.append (.append (.cons (takeField_moduleId _) (.cons (takeField_theme _)
    (.nil _))) (takes_mount _)) (.cons (takeField_nounStyle _)
      (.cons (takeField_sections sections) (.nil _)))) (finish_draft definition)

theorem numberFree_toJson (definition : Definition) : definition.toJson.numberFree = true := by
  have sections := Json.itemsNumberFree_map Section.numberFree_toJson definition.sections
  simp only [toJson, Json.numberFree, Json.fieldsNumberFree_append,
    Json.fieldsNumberFree_optionalText, Json.fieldsNumberFree, sections, Bool.and_true]

/-- A definition is read back from its JSON text, compact or not. -/
theorem ofJsonText_write (definition : Definition) (pretty : Bool) :
    ofJsonText (String.ofList (definition.toJson.write pretty 0)) = .ok definition :=
  Json.decode_write (numberFree_toJson definition) (read_toDatum definition) pretty

end Definition

end ModuleRoutes
