import ModuleRoutes.Json.Value

/-!
# Writing JSON

A value is written compactly, or with each item and field on a line of its own, indented by two
blanks for each container around it. Texts escape quotes, backslashes and controls and nothing else.
-/

namespace ModuleRoutes

open Number Encoding

namespace Json

def escapeChar (c : Char) : List Char :=
  if c = '"' then ['\\', '"']
  else if c = '\\' then ['\\', '\\']
  else if c.toNat = 8 then ['\\', 'b']
  else if c.toNat = 9 then ['\\', 't']
  else if c.toNat = 10 then ['\\', 'n']
  else if c.toNat = 12 then ['\\', 'f']
  else if c.toNat = 13 then ['\\', 'r']
  else if c.toNat < 32 then
    ['\\', 'u', '0', '0', Nat.digitChar (c.toNat / 16), Nat.digitChar (c.toNat % 16)]
  else [c]

def quote (text : String) : List Char := '"' :: text.toList.flatMap escapeChar ++ ['"']

/-- The line break and indentation before an item at a depth, nothing in compact writing. -/
def lineStart (pretty : Bool) (depth : Nat) : List Char :=
  if pretty then '\n' :: List.replicate (2 * depth) ' ' else []

mutual

/-- The text of a value inside `depth` containers. -/
def write (pretty : Bool) (depth : Nat) : Json → List Char
  | .null => "null".toList
  | .bool true => "true".toList
  | .bool false => "false".toList
  | .int value => (toString value).toList
  | .real value => (value.text jsonNumbers).toList
  | .str value => quote value
  | .arr [] => ['[', ']']
  | .arr (item :: items) =>
    '[' :: writeItems pretty (depth + 1) (item :: items) ++ lineStart pretty depth ++ [']']
  | .obj [] => ['\x7b', '\x7d']
  | .obj (field :: fields) =>
    '\x7b' :: writeFields pretty (depth + 1) (field :: fields) ++ lineStart pretty depth
      ++ ['\x7d']

/-- The items of an array with commas between them. -/
def writeItems (pretty : Bool) (depth : Nat) : List Json → List Char
  | [] => []
  | [item] => lineStart pretty depth ++ write pretty depth item
  | item :: next :: items =>
    lineStart pretty depth ++ write pretty depth item ++ [',']
      ++ writeItems pretty depth (next :: items)

/-- The fields of an object with commas between them. -/
def writeFields (pretty : Bool) (depth : Nat) : List (String × Json) → List Char
  | [] => []
  | [(key, value)] => lineStart pretty depth ++ writeField pretty depth key value
  | (key, value) :: next :: fields =>
    lineStart pretty depth ++ writeField pretty depth key value ++ [',']
      ++ writeFields pretty depth (next :: fields)

/-- A field: its key, a colon and its value. -/
def writeField (pretty : Bool) (depth : Nat) (key : String) (value : Json) : List Char :=
  quote key ++ (if pretty then [':', ' '] else [':']) ++ write pretty depth value

end

def compact (value : Json) : String := String.ofList (value.write false 0)

def pretty (value : Json) : String := String.ofList (value.write true 0)

end Json

end ModuleRoutes
