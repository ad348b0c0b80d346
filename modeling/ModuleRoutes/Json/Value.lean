import ModuleRoutes.Encoding.Fields
import ModuleRoutes.Encoding.Message

/-!
# JSON values

Objects keep their fields in the order they were put. A value that stands for data rather than for a
document has its keys in ascending order without repetition; `setField` keeps that.
-/

namespace ModuleRoutes

open Number Encoding

/-- A JSON value. -/
inductive Json where
  | null
  | bool (value : Bool)
  | int (value : Int)
  | real (value : Binary64)
  | str (value : String)
  | arr (items : List Json)
  | obj (fields : List (String × Json))
deriving Repr, Inhabited

namespace Json

/-- The value of the first field with a key. -/
def field? (key : String) : Json → Option Json
  | .obj fields => fields.lookup key
  | _ => none

/-- A field for a text, nothing when the text is absent. -/
def optionalText (key : String) (text : Option String) : List (String × Json) :=
  text.toList.map fun value => (key, .str value)

/-- Containers of a value may stand inside each other up to this depth. -/
def depthLimit : Nat := 127

mutual

/-- The value that a datum stands for, none when it has a flaw or is nested too deeply. -/
def ofDatum? : Nat → Datum → Option Json
  | _, .null => some .null
  | _, .bool value => some (.bool value)
  | _, .int value => some (.int value)
  | _, .real (.finite value) => some (.real value)
  | _, .text value => some (.str value)
  | depth + 1, .list items true => (ofItems? depth items).map .arr
  | depth + 1, .record fields true => (ofFields? depth [] fields).map .obj
  | _, _ => none

/-- The values of a list of data. -/
def ofItems? : Nat → List Datum → Option (List Json)
  | _, [] => some []
  | depth, item :: items => do
    let value ← ofDatum? depth item
    let values ← ofItems? depth items
    pure (value :: values)

/-- The fields of a record in ascending order of keys, a later field in place of an earlier one. -/
def ofFields? : Nat → List (String × Json) → List (Option String × Datum) →
    Option (List (String × Json))
  | _, fields, [] => some fields
  | depth, fields, (key, datum) :: rest => do
    let name ← key
    let value ← ofDatum? depth datum
    ofFields? depth (setField name value fields) rest

end

end Json

end ModuleRoutes
