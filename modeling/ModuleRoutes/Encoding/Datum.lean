import ModuleRoutes.Number.Binary64

/-!
# Encoded data

A text in a data format is read into a `Datum` before it is given a type. The tree keeps what the
typed readers need to report the first fault of the text in reading order: where the text stops
making sense (`unreadable`, a container that is not `closed`), and tokens that are well-formed but
stand for no value (`flawed`), which matter only where the value is wanted. A date or time
(`moment`) counts as a table with a field that nothing wants.
-/

namespace ModuleRoutes

namespace Encoding

open Number

/-- The formats that definitions are written in. -/
inductive Format where
  | json
  | toml
deriving DecidableEq, Repr

/-- A tree of encoded data. A key is none when its text is flawed. -/
inductive Datum where
  | null
  | bool (value : Bool)
  | int (value : Int)
  | real (value : Extended)
  | text (value : String)
  | moment
  | list (items : List Datum) (closed : Bool)
  | record (fields : List (Option String × Datum)) (closed : Bool)
  | flawed
  | unreadable
deriving Repr, Inhabited

mutual

/-- Whether the text behind a datum made sense to its end. -/
def Datum.intact : Datum → Bool
  | .unreadable => false
  | .list items closed => closed && intactItems items
  | .record fields closed => closed && intactFields fields
  | _ => true

/-- Whether the text behind every datum of a list made sense to its end. -/
def intactItems : List Datum → Bool
  | [] => true
  | item :: items => item.intact && intactItems items

/-- Whether the text behind every field made sense to its end. -/
def intactFields : List (Option String × Datum) → Bool
  | [] => true
  | (_, value) :: fields => value.intact && intactFields fields

end

/-- What a reader met in place of what it wanted. -/
inductive Found where
  | null
  | bool (value : Bool)
  | int (value : Int)
  | real (value : Extended)
  | text (value : String)
  | sequence
  | map
  | moment
deriving DecidableEq, Repr

/-- Why well-formed data is not of the wanted shape. -/
inductive Mismatch where
  | invalidType (found : Found) (expected : String)
  | invalidValue (found : Found) (expected : String)
  | invalidLength (length : Nat) (expected : String)
  | missingField (name : String)
  | duplicateField (name : String)
  | unknownVariant (name : String) (options : List String)
  | variantWanted
  | variantEntries (count : Nat)
  | payload (found : Found)
  | refused (reason : String)
deriving DecidableEq, Repr

/-- Why data could not be read: its text is malformed, or its shape is wrong. -/
inductive DecodeFault where
  | syntaxFault
  | data (mismatch : Mismatch)
deriving DecidableEq, Repr

/-- The outcome of reading a value from data. -/
abbrev Decoded (α : Type) := Except DecodeFault α

/-- Reports a datum of another type than the one wanted. -/
def Datum.mismatch {α : Type} (expected : String) : Datum → Decoded α
  | .null => .error (.data (.invalidType .null expected))
  | .bool value => .error (.data (.invalidType (.bool value) expected))
  | .int value => .error (.data (.invalidType (.int value) expected))
  | .real value => .error (.data (.invalidType (.real value) expected))
  | .text value => .error (.data (.invalidType (.text value) expected))
  | .moment => .error (.data (.invalidType .map expected))
  | .list _ _ => .error (.data (.invalidType .sequence expected))
  | .record _ _ => .error (.data (.invalidType .map expected))
  | .flawed => .error .syntaxFault
  | .unreadable => .error .syntaxFault

def Datum.readText (expected : String) : Datum → Decoded String
  | .text value => .ok value
  | other => other.mismatch expected

def Datum.readBool : Datum → Decoded Bool
  | .bool value => .ok value
  | other => other.mismatch "a boolean"

/-- Reads a natural number below `2 ^ 64`. -/
def Datum.readNat : Datum → Decoded Nat
  | .int value =>
    if value < 0 then .error (.data (.invalidValue (.int value) "usize"))
    else if value < twoTo 64 then .ok value.toNat
    else .error (.data (.invalidType (.int value) "usize"))
  | other => other.mismatch "usize"

/-- Reads a value that may be null. -/
def Datum.readOptional {α : Type} (read : Datum → Decoded α) : Datum → Decoded (Option α)
  | .null => .ok none
  | other => (read other).map some

def Datum.readList {α : Type} (read : Datum → Decoded α) : Datum → Decoded (List α)
  | .list items closed => do
    let values ← items.mapM read
    if closed then pure values else throw .syntaxFault
  | other => other.mismatch "a sequence"

/-- Passes over a datum whose value is not wanted. -/
def Datum.skip (datum : Datum) : Decoded Unit :=
  if datum.intact then .ok () else .error .syntaxFault

/-- The value with a name, among named values. -/
def namedVariant {α : Type} (options : List (String × α)) (name : String) : Decoded α :=
  match options.lookup name with
  | some value => .ok value
  | none => .error (.data (.unknownVariant name (options.map Prod.fst)))

/-- Accepts what follows the name of a value in the form of a table with one entry. -/
def Datum.readPayload (format : Format) (datum : Datum) : Decoded Unit :=
  match format, datum with
  | .json, .null => .ok ()
  | .json, other => other.mismatch "unit"
  | .toml, .list [] _ => .ok ()
  | .toml, .record [] _ => .ok ()
  | .toml, .list _ _ => .error (.data (.payload .sequence))
  | .toml, .record _ _ => .error (.data (.payload .map))
  | .toml, .bool value => .error (.data (.payload (.bool value)))
  | .toml, .int value => .error (.data (.payload (.int value)))
  | .toml, .real value => .error (.data (.payload (.real value)))
  | .toml, .text value => .error (.data (.payload (.text value)))
  | .toml, .moment => .error (.data (.payload .moment))
  | .toml, _ => .error .syntaxFault

/-- Reads one of some named values: its name, or a table with the name as its only key. -/
def Datum.readVariant {α : Type} (format : Format) (options : List (String × α)) :
    Datum → Decoded α
  | .text name => namedVariant options name
  | .record fields closed =>
    match format, fields with
    | .json, (some name, value) :: more => do
      let variant ← namedVariant options name
      value.readPayload .json
      if more.isEmpty && closed then pure variant else throw .syntaxFault
    | .json, _ => .error .syntaxFault
    | .toml, [(some name, value)] => do
      let variant ← namedVariant options name
      value.readPayload .toml
      pure variant
    | .toml, fields => .error (.data (.variantEntries fields.length))
  | _ =>
    match format with
    | .json => .error .syntaxFault
    | .toml => .error (.data .variantWanted)

/-- Reads a value into a place that must still be empty. -/
def Datum.readOnce {α : Type} (name : String) (place : Option α) (read : Datum → Decoded α)
    (datum : Datum) : Decoded (Option α) :=
  match place with
  | some _ => .error (.data (.duplicateField name))
  | none => (read datum).map some

def required {α : Type} (name : String) : Option α → Decoded α
  | some value => .ok value
  | none => .error (.data (.missingField name))

/-- A field of a record: its name, and whether a list form of the record must hold it. -/
structure FieldSpec where
  name : String
  mandatory : Bool
deriving DecidableEq, Repr

/-- How a record is read: its name, its fields in order, the draft before any field, how a field
enters the draft, and how the draft is finished. -/
structure RecordReader (Draft Result : Type) where
  title : String
  fields : List FieldSpec
  start : Draft
  put : Draft → String → Datum → Decoded Draft
  finish : Draft → Decoded Result

namespace RecordReader

variable {Draft Result : Type}

/-- Whether a name is one of the record's fields. -/
def knows (reader : RecordReader Draft Result) (name : String) : Bool :=
  reader.fields.any fun field => field.name == name

/-- Takes one field of a table into the draft; fields of other names are passed over. -/
def takeField (reader : RecordReader Draft Result) (draft : Draft) :
    Option String × Datum → Decoded Draft
  | (none, _) => .error .syntaxFault
  | (some name, value) =>
    if reader.knows name then reader.put draft name value
    else value.skip.map fun _ => draft

/-- Takes the items of a list into the draft, one for each field in order. -/
def takeItems (reader : RecordReader Draft Result) (format : Format) (closed : Bool) :
    Draft → List FieldSpec → List Datum → Nat → Decoded Draft
  | draft, [], items, _ =>
    if format = .toml ∨ (items.isEmpty ∧ closed) then .ok draft else .error .syntaxFault
  | draft, field :: fields, item :: items, index => do
    let next ← reader.put draft field.name item
    reader.takeItems format closed next fields items (index + 1)
  | draft, field :: fields, [], index =>
    if !closed then .error .syntaxFault
    else if field.mandatory then
      .error (.data (.invalidLength index (reader.title ++ " with "
        ++ toString reader.fields.length ++ " elements")))
    else reader.takeItems format closed draft fields [] (index + 1)

/-- Reads a record from a table, or from the list of its fields in order. -/
def read (reader : RecordReader Draft Result) (format : Format) : Datum → Decoded Result
  | .record fields closed => do
    let draft ← fields.foldlM reader.takeField reader.start
    if closed then reader.finish draft else throw .syntaxFault
  | .list items closed => do
    let draft ← reader.takeItems format closed reader.start reader.fields items 0
    reader.finish draft
  | .moment => reader.finish reader.start
  | other => other.mismatch reader.title

end RecordReader

end Encoding

end ModuleRoutes
