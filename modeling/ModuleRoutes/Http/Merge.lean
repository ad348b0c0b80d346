import ModuleRoutes.Handler.Basic
import ModuleRoutes.Http.Form
import ModuleRoutes.Json.Reader

/-!
# Merged requests

A handler sees one object with the parameters of the path, the pairs of the query and the fields of
a JSON body; where keys clash the later source wins. Values of a query are typed by how they look. A
body counts only if the content type says JSON, and a body that is not an object stands under its
own key.
-/

namespace ModuleRoutes

namespace Http

open Encoding Number Text

/-- A text in lower case, as far as it is ASCII. -/
def lowerAscii (text : List Char) : List Char := text.map Char.toLower

/-- The sign of a number, and what follows. -/
def numberSign : List Char → Bool × List Char
  | '-' :: rest => (true, rest)
  | '+' :: rest => (false, rest)
  | text => (false, text)

/-- The digits at the front of a text, and what follows. -/
def digitsOf (text : List Char) : List Char × List Char :=
  (text.takeWhile Char.isDigit, text.dropWhile Char.isDigit)

/-- The exponent at the end of a number. -/
def exponentOf? : List Char → Option Int
  | [] => some 0
  | mark :: rest =>
    if mark = 'e' ∨ mark = 'E' then
      let (negative, rest) := numberSign rest
      let (digits, after) := digitsOf rest
      if digits.isEmpty ∨ !after.isEmpty then none
      else some (if negative then -(numberOf digits : Int) else numberOf digits)
    else none

/-- A number in decimal notation: digits with perhaps a point among or beside them, and perhaps an
exponent. A magnitude beyond all finite numbers is infinite. -/
def decimalNumber? (negative : Bool) (text : List Char) : Option Extended := do
  let (whole, rest) := digitsOf text
  let (fraction, rest) := match rest with
    | '.' :: rest' => digitsOf rest'
    | _ => ([], rest)
  if whole.isEmpty ∧ fraction.isEmpty then none
  else
    let exponent ← exponentOf? rest
    match Binary64.ofDecimal negative (numberOf (whole ++ fraction))
        (exponent - fraction.length) with
    | some x => pure (.finite x)
    | none => pure (.infinite negative)

/-- The number that a text writes, if it writes one. -/
def numberOf? (text : List Char) : Option Extended :=
  let (negative, rest) := numberSign text
  match String.ofList (lowerAscii rest) with
  | "inf" | "infinity" => some (.infinite negative)
  | "nan" => some .undefined
  | _ => decimalNumber? negative rest

/-- The value of a query as it looks: a number, a truth value, or a text. Numbers that JSON has no
form for are null. -/
def queryValue (text : List Char) : Json :=
  match numberOf? text with
  | some (.finite x) => .real x
  | some _ => .null
  | none =>
    match String.ofList (lowerAscii text) with
    | "true" => .bool true
    | "false" => .bool false
    | _ => .str (String.ofList text)

/-- The text of a header, which is unreadable if one of its bytes is no visible ASCII character, no
blank and no tab. -/
def headerText? (value : List UInt8) : Option (List Char) :=
  if value.all fun b => (32 ≤ b.toNat && b.toNat < 127) || b = 9 then decodeUtf8? value else none

/-- Whether a content type says JSON. An unreadable content type says nothing. -/
def saysJson (contentType : Option (List UInt8)) : Bool :=
  match contentType.bind headerText? with
  | some text => (afterFirst? "application/json".toList text).isSome
  | none => false

/-- Fields with the fields of a JSON body. -/
def mergeBody (fields : List (String × Json)) (body : List UInt8) :
    Option (List (String × Json)) :=
  match Json.parseBytes? body with
  | some (.obj others) =>
    some (others.foldl (fun fields (key, value) => setField key value fields) fields)
  | some other => some (setField "body" other fields)
  | none => none

/-- The object that a handler sees, none when a body should be JSON and is not. -/
def mergedRequest? (parameters : List (String × String)) (query : Option (List Char))
    (contentType : Option (List UInt8)) (body : List UInt8) : Option Json :=
  let fromPath := parameters.foldl (fun fields (key, value) => setField key (.str value) fields) []
  let fromQuery := (queryPairs (query.getD [])).foldl
    (fun fields (key, value) => setField (String.ofList key) (queryValue value) fields) fromPath
  if saysJson contentType && !body.isEmpty then (mergeBody fromQuery body).map .obj
  else some (.obj fromQuery)

end Http

end ModuleRoutes
