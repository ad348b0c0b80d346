import ModuleRoutes.Compiler
import ModuleRoutes.Proofs.Definition.Encoded
import ModuleRoutes.Proofs.Toml.Tables

/-!
# Definitions in either format

The TOML text of a definition spells statements that fill the tables of the definition, so the
definition is read back from it (`ModuleRoutes.Definition.ofTomlText_tomlText`), as it is from its
JSON text (`ModuleRoutes.Definition.survives_encoding`).
-/

namespace ModuleRoutes

open Encoding Toml

namespace Action

/-- What the table of an action gives to its keys. -/
def gifts (action : Action) : List (String × Datum) :=
  [("name", .text action.name), ("method", .text action.method.text),
    ("needsId", .bool action.needsId)] ++ optionalGift "responseShape" action.responseShape

theorem spells_tomlText (action : Action) :
    Spells action.tomlText (.tableItem ["sections"] "actions" :: action.gifts.map .gives) := by
  have header : Spells (itemHeader "sections.actions") [.tableItem ["sections"] "actions"] := by
    refine .itemHeader fun steps rest => ?_
    have last : readKey (steps + 1) ("actions".toList ++ ']' :: rest) =
        some (["actions"], ']' :: rest) :=
      readKey_bare (by decide) (by decide) (by simp [skipSpace, isSpace]) steps
    have bare : IsBareKey "sections" := by decide
    have dotted := readKey_dotted bare (steps + 1) ("actions".toList ++ ']' :: rest)
    rw [last] at dotted
    exact dotted
  have spells := (((header.append (.textEntry "name" action.name (by decide))).append
    (.textEntry "method" action.method.text (by decide))).append
    (.entry "needsId" (by decide) (isValue_bool action.needsId))).append
    (.optionalEntry "responseShape" action.responseShape (by decide))
  simpa [tomlText, gifts] using spells

theorem fills_gifts (action : Action) :
    Fills (action.gifts.map .gives) ["sections", "actions"] (given action.gifts []) := by
  refine .gifts ?_ _
  obtain ⟨_, _, _, shape⟩ := action
  cases shape <;> simp [gifts]

theorem fieldData_gifts (action : Action) :
    fieldData (given action.gifts []) = action.tomlData := by
  obtain ⟨name, method, needsId, shape⟩ := action
  have ordered : given (gifts ⟨name, method, needsId, shape⟩) [] =
      [("method", .value (.text method.text)), ("name", .value (.text name)),
        ("needsId", .value (.bool needsId))] ++
        shape.toList.map fun text => ("responseShape", .value (.text text)) := by
    cases shape <;> simp only [gifts, optionalGift_none, optionalGift_some, given_append,
      given_cons, given_nil] <;> rfl
  rw [ordered, fieldData_eq_map]
  simp [tomlData, optionalField, Node.datum, Function.comp_def]

end Action

namespace Section

/-- What the table of a section gives to its keys. -/
def gifts (part : Section) : List (String × Datum) :=
  [("kind", .text part.kind.text)] ++ optionalGift "resourceName" part.resourceName ++
    [("idStyle", .text part.idStyle.text)]

/-- The statements that the table of a section is filled with. -/
def statements (part : Section) : List Statement :=
  (part.gifts ++ emptyGift "actions" part.actions).map .gives ++
    part.actions.flatMap fun action =>
      .tableItem ["sections"] "actions" :: action.gifts.map .gives

theorem spells_tomlText (part : Section) :
    Spells part.tomlText (.tableItem [] "sections" :: part.statements) := by
  have header : Spells (itemHeader "sections") [.tableItem [] "sections"] :=
    .itemHeader fun steps _ => readKey_bare (by decide) (by decide)
      (by simp [skipSpace, isSpace]) (steps + 1)
  have spells := ((((header.append (.textEntry "kind" part.kind.text (by decide))).append
    (.optionalEntry "resourceName" part.resourceName (by decide))).append
    (.textEntry "idStyle" part.idStyle.text (by decide))).append
    (.emptyEntry "actions" part.actions (by decide))).append
    (.flatMap Action.spells_tomlText part.actions)
  simpa [tomlText, statements, gifts] using spells

/-- The fields of a section under construction. -/
def tables (part : Section) : Fields :=
  setField "actions" (arrayNode (part.actions.map fun action => given action.gifts []).reverse)
    (given part.gifts [])

theorem fills_tables (part : Section) : Fills part.statements ["sections"] part.tables := by
  refine .items ?_ ?_ Action.fills_gifts part.actions
  all_goals
    obtain ⟨_, noun, _, _⟩ := part
    cases noun <;> simp [gifts]

theorem fieldData_tables (part : Section) : fieldData part.tables = part.tomlData := by
  obtain ⟨kind, noun, idStyle, actions⟩ := part
  have ordered : ∀ node, setField "actions" node (given (gifts ⟨kind, noun, idStyle, actions⟩) []) =
      [("actions", node), ("idStyle", .value (.text idStyle.text)),
        ("kind", .value (.text kind.text))] ++
        noun.toList.map fun text => ("resourceName", .value (.text text)) := by
    intro node
    cases noun <;> simp only [gifts, optionalGift_none, optionalGift_some, given_append, given_cons,
      given_nil] <;> rfl
  rw [tables, ordered, fieldData_eq_map]
  simp [tomlData, optionalField, datum_arrayNode, Node.datum, Function.comp_def,
    Action.fieldData_gifts]

end Section

namespace Definition

/-- What a document gives to its own keys. -/
def gifts (definition : Definition) : List (String × Datum) :=
  [("moduleId", .text definition.moduleId), ("theme", .text definition.theme)] ++
    optionalGift "mount" definition.mount ++ [("nounStyle", .text definition.nounStyle.text)]

/-- The statements that a definition is written with. -/
def statements (definition : Definition) : List Statement :=
  (definition.gifts ++ emptyGift "sections" definition.sections).map .gives ++
    definition.sections.flatMap fun part => .tableItem [] "sections" :: part.statements

theorem spells_tomlText (definition : Definition) :
    Spells definition.tomlText.toList definition.statements := by
  have spells := (((((Spells.textEntry "moduleId" definition.moduleId (by decide)).append
    (.textEntry "theme" definition.theme (by decide))).append
    (.optionalEntry "mount" definition.mount (by decide))).append
    (.textEntry "nounStyle" definition.nounStyle.text (by decide))).append
    (.emptyEntry "sections" definition.sections (by decide))).append
    (.flatMap Section.spells_tomlText definition.sections)
  simpa [tomlText, statements, gifts] using spells

/-- The fields of a document under construction. -/
def tables (definition : Definition) : Fields :=
  setField "sections" (arrayNode (definition.sections.map Section.tables).reverse)
    (given definition.gifts [])

theorem fills_tables (definition : Definition) :
    Fills definition.statements [] definition.tables := by
  refine .items ?_ ?_ Section.fills_tables definition.sections
  all_goals
    obtain ⟨_, _, mount, _, _⟩ := definition
    cases mount <;> simp [gifts]

theorem fieldData_tables (definition : Definition) :
    fieldData definition.tables = definition.tomlData := by
  obtain ⟨moduleId, theme, mount, nounStyle, sections⟩ := definition
  have ordered : ∀ node,
      setField "sections" node (given (gifts ⟨moduleId, theme, mount, nounStyle, sections⟩) []) =
      [("moduleId", .value (.text moduleId))] ++
        (mount.toList.map fun text => ("mount", .value (.text text))) ++
        [("nounStyle", .value (.text nounStyle.text)), ("sections", node),
          ("theme", .value (.text theme))] := by
    intro node
    cases mount <;> simp only [gifts, optionalGift_none, optionalGift_some, given_append,
      given_cons, given_nil] <;> rfl
  rw [tables, ordered, fieldData_eq_map]
  simp [tomlData, optionalField, datum_arrayNode, Node.datum, Function.comp_def,
    Section.fieldData_tables]

/-- A definition is read back from its TOML text. -/
theorem ofTomlText_tomlText (definition : Definition) :
    ofTomlText definition.tomlText = .ok definition := by
  have unmarked : definition.tomlText.toList.head? ≠ some '\uFEFF' := by
    simp [tomlText, Toml.textEntry, Toml.entry]
  have document := readDocument?_of_spells definition.spells_tomlText definition.fills_tables
    (by simp [statements, gifts]) unmarked
  rw [String.ofList_toList, fieldData_tables] at document
  simp only [ofTomlText, Toml.decode, document, read_tomlData]

/-- **Definitions survive both encodings.** A definition is read back from its JSON text, compact or
not, and from its TOML text, so every compiler makes the same of either. -/
theorem survives_encoding (definition : Definition) (pretty : Bool) :
    ofJsonText (String.ofList (definition.toJson.write pretty 0)) = .ok definition ∧
      ofTomlText definition.tomlText = .ok definition ∧
      ∀ compiler : Compiler,
        (ofJsonText (String.ofList (definition.toJson.write pretty 0))).map compiler.compile =
          (ofTomlText definition.tomlText).map compiler.compile := by
  have json := ofJsonText_write definition pretty
  have toml := ofTomlText_tomlText definition
  exact ⟨json, toml, fun compiler => by rw [json, toml]⟩

end Definition

end ModuleRoutes
