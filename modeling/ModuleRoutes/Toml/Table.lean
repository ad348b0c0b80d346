import ModuleRoutes.Encoding.Datum
import ModuleRoutes.Encoding.Fields

/-!
# Tables under construction

The statements of a document build one tree of tables. A table remembers how it came about, since
that decides what may still be added to it: a table with a header of its own takes no second header
and no dotted keys from outside, a table made by dotted keys takes no header, and a table that only
stands in the path of other headers may still get its own.
-/

namespace ModuleRoutes

namespace Toml

open Encoding

/-- How a table came about: in the path of a header, by dotted keys, or by a header of its own. -/
inductive Origin where
  | implied
  | dotted
  | declared
deriving DecidableEq, Repr

/-- What stands under a key: a value, a table, or an array of tables with the latest first. -/
inductive Node where
  | value (datum : Datum)
  | table (origin : Origin) (fields : List (String × Node))
  | tables (latest : List (String × Node)) (earlier : List (List (String × Node)))

/-- The fields of a table under construction. -/
abbrev Fields := List (String × Node)

namespace Fields

/-- Fields with a new one, none when its key is taken. -/
def add? (key : String) (node : Node) (fields : Fields) : Option Fields :=
  match fields.lookup key with
  | some _ => none
  | none => some (setField key node fields)

/-- Fields with a value under a dotted key. The tables in the path of the key must be new, or made
by dotted keys, or at least, all but the last, have no header of their own. -/
def assign? (value : Datum) : List String → String → Fields → Option Fields
  | [], key, fields => fields.add? key (.value value)
  | step :: path, key, fields =>
    match fields.lookup step with
    | none =>
      (assign? value path key []).map fun inner => setField step (.table .dotted inner) fields
    | some (.table .declared _) => none
    | some (.table origin inner) =>
      if path = [] ∧ origin ≠ .dotted then none
      else (assign? value path key inner).map fun inner =>
        setField step (.table origin inner) fields
    | some (.tables latest earlier) =>
      if path = [] then none
      else (assign? value path key latest).map fun latest =>
        setField step (.tables latest earlier) fields
    | some (.value _) => none

/-- Fields with the table at the end of a path changed. Tables that are not there yet are implied;
of an array of tables the latest one counts. -/
def descend? (change : Fields → Option Fields) : List String → Fields → Option Fields
  | [], fields => change fields
  | step :: path, fields =>
    match fields.lookup step with
    | none =>
      (descend? change path []).map fun inner => setField step (.table .implied inner) fields
    | some (.table origin inner) =>
      (descend? change path inner).map fun inner => setField step (.table origin inner) fields
    | some (.tables latest earlier) =>
      (descend? change path latest).map fun latest => setField step (.tables latest earlier) fields
    | some (.value _) => none

/-- Fields with a table that a header declares. -/
def declare? (key : String) (fields : Fields) : Option Fields :=
  match fields.lookup key with
  | none => some (setField key (.table .declared []) fields)
  | some (.table .implied inner) => some (setField key (.table .declared inner) fields)
  | some _ => none

/-- Fields with one more table in the array that a header declares. -/
def extend? (key : String) (fields : Fields) : Option Fields :=
  match fields.lookup key with
  | none => some (setField key (.tables [] []) fields)
  | some (.tables latest earlier) => some (setField key (.tables [] (latest :: earlier)) fields)
  | some _ => none

end Fields

mutual

/-- The datum of a finished node. -/
def Node.datum : Node → Datum
  | .value datum => datum
  | .table _ fields => .record (fieldData fields) true
  | .tables latest earlier => .list (tableData earlier [.record (fieldData latest) true]) true

def fieldData : List (String × Node) → List (Option String × Datum)
  | [] => []
  | (key, node) :: fields => (some key, node.datum) :: fieldData fields

/-- The data of the tables of an array, earliest first, before those that come later. -/
def tableData : List (List (String × Node)) → List Datum → List Datum
  | [], later => later
  | fields :: earlier, later => tableData earlier (.record (fieldData fields) true :: later)

end

end Toml

end ModuleRoutes
