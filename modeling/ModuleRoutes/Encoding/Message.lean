import ModuleRoutes.Encoding.Datum
import ModuleRoutes.Number.Shortest
import ModuleRoutes.Text.Quoted
import ModuleRoutes.Text.Segments

/-!
# The wording of mismatches

Both formats word a mismatch alike; they differ in how a floating point number is shown. JSON shows
it as it writes it, TOML without an exponent whatever its size.
-/

namespace ModuleRoutes

namespace Encoding

open Number

/-- JSON writes numbers plainly from `1e-5` up to below `1e16`, and marks positive exponents. -/
def jsonNumbers : NumberStyle := ⟨-5, 16, "e", "+"⟩

/-- TOML messages show every number plainly. -/
def tomlNumbers : NumberStyle := ⟨-400, 400, "e", "+"⟩

/-- The text of a number in a message. -/
def realText (format : Format) : Extended → String
  | .finite x => x.text (match format with | .json => jsonNumbers | .toml => tomlNumbers)
  | .infinite negative => if negative then "-inf" else "inf"
  | .undefined => "NaN"

/-- What was met, in words. -/
def Found.describe (format : Format) : Found → String
  | .null => "null"
  | .bool value => "boolean `" ++ (if value then "true" else "false") ++ "`"
  | .int value =>
    "integer `" ++ toString value ++ "`"
      ++ (if value < -(twoTo 63) ∨ (twoTo 64 ≤ value ∧ value < twoTo 127) then " as i128"
          else if twoTo 127 ≤ value then " as u128" else "")
  | .real value => "floating point `" ++ realText format value ++ "`"
  | .text value => "string " ++ Text.quoted value
  | .sequence => "sequence"
  | .map => "map"
  | .moment => "map"

/-- The kind of value that was met, in the words of a TOML message. -/
def Found.kind : Found → String
  | .null => "null"
  | .bool _ => "boolean"
  | .int _ => "integer"
  | .real _ => "float"
  | .text _ => "string"
  | .sequence => "array"
  | .map => "table"
  | .moment => "datetime"

/-- A name between back quotes. -/
def ticked (name : String) : String := "`" ++ name ++ "`"

/-- The names that would have been accepted, in words. -/
def optionsText : List String → String
  | [] => "there are no variants"
  | [only] => "expected " ++ ticked only
  | [first, second] => "expected " ++ ticked first ++ " or " ++ ticked second
  | options => "expected one of " ++ Text.joined ", " (options.map ticked)

def Mismatch.message (format : Format) : Mismatch → String
  | .invalidType found expected =>
    "invalid type: " ++ found.describe format ++ ", expected " ++ expected
  | .invalidValue found expected =>
    "invalid value: " ++ found.describe format ++ ", expected " ++ expected
  | .invalidLength length expected =>
    "invalid length " ++ toString length ++ ", expected " ++ expected
  | .missingField name => "missing field " ++ ticked name
  | .duplicateField name => "duplicate field " ++ ticked name
  | .unknownVariant name options => "unknown variant " ++ ticked name ++ ", " ++ optionsText options
  | .variantWanted => "wanted string or table"
  | .variantEntries count =>
    if count = 0 then "wanted exactly 1 element, found 0 elements"
    else "wanted exactly 1 element, more than 1 element"
  | .payload .sequence => "expected empty array"
  | .payload .map => "expected empty table"
  | .payload found => "expected table, found " ++ found.kind
  | .refused reason => reason

end Encoding

end ModuleRoutes
