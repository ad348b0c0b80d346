import ModuleRoutes.Definition.Encoded
import ModuleRoutes.Toml.Quoted
import ModuleRoutes.Toml.Reader

/-!
# Definitions in TOML

A definition is written field by field, then a table for each section with a table for each of its
actions. A blank line stands before each header, and empty lists are written in place.
-/

namespace ModuleRoutes

open Encoding

/-- A line that gives a key a value. -/
def Toml.entry (key : String) (value : List Char) : List Char :=
  key.toList ++ [' ', '=', ' '] ++ value ++ ['\n']

/-- A line that gives a key a text. -/
def Toml.textEntry (key value : String) : List Char := Toml.entry key (Toml.quote value)

/-- A line that gives a key a text, nothing when the text is absent. -/
def Toml.optionalEntry (key : String) (value : Option String) : List Char :=
  match value with
  | some text => Toml.textEntry key text
  | none => []

/-- A line that gives a key an empty list when the list is empty. -/
def Toml.emptyEntry {α : Type} (key : String) (items : List α) : List Char :=
  if items.isEmpty then Toml.entry key ['[', ']'] else []

/-- The header of one table in an array, with the blank line before it. -/
def Toml.itemHeader (name : String) : List Char :=
  ['\n', '[', '['] ++ name.toList ++ [']', ']', '\n']

def Action.tomlText (action : Action) : List Char :=
  Toml.itemHeader "sections.actions" ++ Toml.textEntry "name" action.name
    ++ Toml.textEntry "method" action.method.text
    ++ Toml.entry "needsId" (if action.needsId then "true".toList else "false".toList)
    ++ Toml.optionalEntry "responseShape" action.responseShape

/-- The table of a section, with the tables of its actions. -/
def Section.tomlText (part : Section) : List Char :=
  Toml.itemHeader "sections" ++ Toml.textEntry "kind" part.kind.text
    ++ Toml.optionalEntry "resourceName" part.resourceName
    ++ Toml.textEntry "idStyle" part.idStyle.text ++ Toml.emptyEntry "actions" part.actions
    ++ part.actions.flatMap Action.tomlText

namespace Definition

def tomlText (definition : Definition) : String :=
  String.ofList (Toml.textEntry "moduleId" definition.moduleId
    ++ Toml.textEntry "theme" definition.theme
    ++ Toml.optionalEntry "mount" definition.mount
    ++ Toml.textEntry "nounStyle" definition.nounStyle.text
    ++ Toml.emptyEntry "sections" definition.sections
    ++ definition.sections.flatMap Section.tomlText)

def ofTomlText (text : String) : Decoded Definition := Toml.decode (read .toml) text

end Definition

end ModuleRoutes
