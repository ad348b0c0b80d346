import ModuleRoutes.Toml.Scalar
import ModuleRoutes.Toml.Table
import ModuleRoutes.Toml.Text

/-!
# Reading TOML

A document is a list of statements, each on its own line: a key with a value, or the header of a
table. It is read as a whole before it is given a type, so that a malformed line anywhere is what is
reported. Whole numbers beyond 64 bits with sign are read, but a document that holds one and is of
the wrong shape counts as malformed.
-/

namespace ModuleRoutes

namespace Toml

open Encoding Number

/-- Arrays and inline tables may stand inside each other up to this depth. -/
def depthLimit : Nat := 80

mutual

/-- The value at the front of a text, and what follows. The first argument bounds the number of
steps, the second the depth that is left. -/
def readValue : Nat → Nat → List Char → Option (Datum × List Char)
  | 0, _, _ => none
  | steps + 1, depth, text =>
    match text with
    | '"' :: _ | '\'' :: _ =>
      (readString text).map fun (value, rest) => (.text (String.ofList value), rest)
    | '[' :: rest =>
      match depth with
      | 0 => none
      | depth + 1 =>
        (readItems steps depth rest).map fun (items, after) => (.list items true, after)
    | '\x7b' :: rest =>
      match depth with
      | 0 => none
      | depth + 1 => do
        let (entries, after) ← readEntries steps depth rest
        let fields ← entries.foldlM (fun fields entry => entry fields) []
        pure (.record (fieldData fields) true, after)
    | _ => readScalar text

/-- The items of an array from here to its end. -/
def readItems : Nat → Nat → List Char → Option (List Datum × List Char)
  | 0, _, _ => none
  | steps + 1, depth, text => do
    match ← skipLines false text with
    | ']' :: after => pure ([], after)
    | text' =>
      let (item, rest) ← readValue steps depth text'
      match ← skipLines false rest with
      | ',' :: more => (readItems steps depth more).map fun (items, after) => (item :: items, after)
      | ']' :: after => pure ([item], after)
      | _ => none

/-- The entries of an inline table from here to its end, each as the change it makes. -/
def readEntries : Nat → Nat → List Char → Option (List (Fields → Option Fields) × List Char)
  | 0, _, _ => none
  | steps + 1, depth, text => do
    match ← skipLines false text with
    | '\x7d' :: after => pure ([], after)
    | text' =>
      let (path, rest) ← readKey steps text'
      match rest with
      | '=' :: rest' =>
        let (value, rest'') ← readValue steps depth (skipSpace rest')
        let entry := Fields.assign? value path.dropLast (path.getLast?.getD "")
        match ← skipLines false rest'' with
        | ',' :: more =>
          (readEntries steps depth more).map fun (entries, after) => (entry :: entries, after)
        | '\x7d' :: after => pure ([entry], after)
        | _ => none
      | _ => none

end

/-- One statement of a document. -/
inductive Statement where
  | assign (path : List String) (key : String) (value : Datum)
  | table (path : List String) (key : String)
  | tableItem (path : List String) (key : String)
deriving Repr

/-- What follows a closing bracket, or two of them. -/
def afterHeader? (double : Bool) : List Char → Option (List Char)
  | ']' :: ']' :: rest => if double then some rest else none
  | ']' :: rest => if double then none else some rest
  | _ => none

/-- The statement at the front of a text, and what follows. -/
def readStatement (steps : Nat) (text : List Char) : Option (Statement × List Char) :=
  match text with
  | '[' :: '[' :: rest => do
    let (path, rest') ← readKey steps rest
    let after ← afterHeader? true rest'
    pure (.tableItem path.dropLast (path.getLast?.getD ""), after)
  | '[' :: rest => do
    let (path, rest') ← readKey steps rest
    let after ← afterHeader? false rest'
    pure (.table path.dropLast (path.getLast?.getD ""), after)
  | _ => do
    let (path, rest) ← readKey steps text
    match rest with
    | '=' :: rest' =>
      let (value, after) ← readValue steps depthLimit (skipSpace rest')
      pure (.assign path.dropLast (path.getLast?.getD "") value, after)
    | _ => none

/-- What follows the end of a line, which may hold a comment. -/
def afterLine? (text : List Char) : Option (List Char) :=
  match skipSpace text with
  | [] => some []
  | '\n' :: rest => some rest
  | '\r' :: '\n' :: rest => some rest
  | '#' :: rest => skipLines true rest
  | _ => none

def readStatements : Nat → List Char → Option (List Statement)
  | 0, _ => none
  | steps + 1, text => do
    match ← skipLines false text with
    | [] => pure []
    | text' =>
      let (statement, rest) ← readStatement steps text'
      let after ← afterLine? rest
      (readStatements steps after).map (statement :: ·)

/-- The tree of a document so far, and the table that its statements go to. -/
structure Building where
  root : Fields
  current : List String

/-- A document with one more statement. -/
def Building.take? (building : Building) : Statement → Option Building
  | .assign path key value =>
    (Fields.descend? (Fields.assign? value path key) building.current building.root).map fun root =>
      { building with root := root }
  | .table path key =>
    (Fields.descend? (Fields.declare? key) path building.root).map fun root =>
      ⟨root, path ++ [key]⟩
  | .tableItem path key =>
    (Fields.descend? (Fields.extend? key) path building.root).map fun root =>
      ⟨root, path ++ [key]⟩

/-- A text without the mark that may stand before its first character. -/
def dropMark : List Char → List Char
  | '\uFEFF' :: rest => rest
  | text => text

/-- The datum of a document, none when it is malformed. -/
def readDocument? (source : String) : Option Datum := do
  let text := dropMark source.toList
  let statements ← readStatements (text.length + 1) text
  let building ← statements.foldlM Building.take? ⟨[], []⟩
  pure (.record (fieldData building.root) true)

mutual

/-- Whether every whole number of a datum has 64 bits with sign. -/
def numbersFit : Datum → Bool
  | .int value => decide (FitsSigned 63 value)
  | .list items _ => itemNumbersFit items
  | .record fields _ => fieldNumbersFit fields
  | _ => true

def itemNumbersFit : List Datum → Bool
  | [] => true
  | item :: items => numbersFit item && itemNumbersFit items

def fieldNumbersFit : List (Option String × Datum) → Bool
  | [] => true
  | (_, value) :: fields => numbersFit value && fieldNumbersFit fields

end

/-- Reads a value of a type from a TOML text. -/
def decode {α : Type} (read : Datum → Decoded α) (text : String) : Decoded α :=
  match readDocument? text with
  | none => .error .syntaxFault
  | some datum =>
    match read datum with
    | .ok value => .ok value
    | .error fault => if numbersFit datum then .error fault else .error .syntaxFault

end Toml

end ModuleRoutes
