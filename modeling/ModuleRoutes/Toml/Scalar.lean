import ModuleRoutes.Encoding.Datum
import ModuleRoutes.Text.Digits
import ModuleRoutes.Text.Segments

/-!
# Bare values in TOML

Truth values, numbers, dates and times stand without quotes. A bare value is the longest run of the
characters that such values are made of; a date may go on after one blank with a time. Underscores
may stand between two digits.
-/

namespace ModuleRoutes

namespace Toml

open Encoding Number Text

/-- Whether a character may stand in a bare value. -/
def isScalarChar (c : Char) : Bool :=
  c.isAlphanum || c = '_' || c = '+' || c = '-' || c = '.' || c = ':'

/-- The digits of a run whose underscores all stand between two digits. -/
def digitRun? (isDigit : Char → Bool) (text : List Char) : Option (List Char) :=
  let groups := splitOn '_' text
  if groups.all fun group => !group.isEmpty && group.all isDigit then some groups.flatten else none

/-- The digits of a decimal run without needless zeros at its front. -/
def wholeDigits? (text : List Char) : Option (List Char) := do
  let digits ← digitRun? Char.isDigit text
  match digits, text with
  | '0' :: _, _ :: _ :: _ => none
  | _, _ => pure digits

/-- Whether a number is negative, and what follows its sign. -/
def splitSign : List Char → Bool × List Char
  | '-' :: rest => (true, rest)
  | '+' :: rest => (false, rest)
  | text => (false, text)

/-- A whole number with its sign. -/
def negateIf (negative : Bool) (n : Nat) : Int := if negative then -(n : Int) else n

/-- The datum of a whole number, none beyond 128 bits. -/
def intDatum? (value : Int) : Option Datum :=
  if -(twoTo 127) ≤ value ∧ value < twoTo 128 then some (.int value) else none

/-- The whole number that digits of a base write. -/
def inBase? (base : Nat) (text : List Char) : Option Datum := do
  let fits := fun c => (hexValue? c).any fun value => value < base
  let digits ← digitRun? fits text
  intDatum? (digits.foldl (fun n c => n * base + (hexValue? c).getD 0) 0 : Nat)

def readInteger? : List Char → Option Datum
  | '0' :: 'x' :: rest => inBase? 16 rest
  | '0' :: 'o' :: rest => inBase? 8 rest
  | '0' :: 'b' :: rest => inBase? 2 rest
  | text => do
    let (negative, rest) := splitSign text
    let digits ← wholeDigits? rest
    intDatum? (negateIf negative (numberOf digits))

/-- What stands before the first character of a class, and what follows it. -/
def cutWhere? (p : Char → Bool) : List Char → Option (List Char × List Char)
  | [] => none
  | c :: rest =>
    if p c then some ([], rest)
    else (cutWhere? p rest).map fun (before, after) => (c :: before, after)

/-- The exponent that follows its mark. -/
def readExponent? (text : List Char) : Option Int := do
  let (negative, rest) := splitSign text
  let digits ← digitRun? Char.isDigit rest
  pure (negateIf negative (numberOf digits))

/-- The digits after a decimal point, none when there is no point. -/
def readFraction? (mantissa : List Char) : Option (List Char × Option (List Char)) :=
  match cutWhere? (· = '.') mantissa with
  | some (whole, fraction) =>
    (digitRun? Char.isDigit fraction).map fun digits => (whole, some digits)
  | none => some (mantissa, none)

/-- The number before an exponent's mark and the exponent, which may be left out. -/
def readScale? (text : List Char) : Option (List Char × Option Int) :=
  match cutWhere? (fun c => c = 'e' || c = 'E') text with
  | some (mantissa, exponent) => (readExponent? exponent).map fun value => (mantissa, some value)
  | none => some (text, none)

/-- A floating point number: one with a point or an exponent, or none of the finite ones by name. A
number that no finite one is near to is refused. -/
def readReal? (text : List Char) : Option Datum := do
  let (negative, rest) := splitSign text
  match String.ofList rest with
  | "inf" => pure (.real (.infinite negative))
  | "nan" => pure (.real .undefined)
  | _ =>
    let (mantissa, exponent?) ← readScale? rest
    let (whole, fraction?) ← readFraction? mantissa
    if exponent?.isNone ∧ fraction?.isNone then none
    let fraction := fraction?.getD []
    let digits ← wholeDigits? whole
    let value ← Binary64.ofDecimal negative (numberOf (digits ++ fraction))
      (exponent?.getD 0 - fraction.length)
    pure (.real (.finite value))

/-! ## Dates and times -/

/-- The number that a given count of digits writes, and what follows them. -/
def fixedDigits? (count : Nat) (text : List Char) : Option (Nat × List Char) :=
  let digits := text.take count
  if digits.length = count ∧ digits.all Char.isDigit then some (numberOf digits, text.drop count)
  else none

/-- What follows a character. -/
def after? (c : Char) : List Char → Option (List Char)
  | d :: rest => if d = c then some rest else none
  | [] => none

def daysIn (year month : Nat) : Nat :=
  if month = 2 then
    if year % 4 = 0 ∧ (year % 100 ≠ 0 ∨ year % 400 = 0) then 29 else 28
  else if month = 4 ∨ month = 6 ∨ month = 9 ∨ month = 11 then 30
  else 31

/-- What follows a date. -/
def afterDate? (text : List Char) : Option (List Char) := do
  let (year, rest) ← fixedDigits? 4 text
  let (month, rest) ← fixedDigits? 2 (← after? '-' rest)
  let (day, rest) ← fixedDigits? 2 (← after? '-' rest)
  if 1 ≤ month ∧ month ≤ 12 ∧ 1 ≤ day ∧ day ≤ daysIn year month then pure rest else none

/-- What follows the seconds of a time, which may be left out, and their fraction. -/
def afterSeconds? (text : List Char) : Option (List Char) :=
  match text with
  | ':' :: rest => do
    let (second, rest) ← fixedDigits? 2 rest
    if 60 < second then none
    else
      match rest with
      | '.' :: fraction =>
        if (fraction.takeWhile Char.isDigit).isEmpty then none
        else pure (fraction.dropWhile Char.isDigit)
      | _ => pure rest
  | _ => some text

/-- What follows the hours and minutes at the front of a text. -/
def afterClock? (text : List Char) : Option (List Char) := do
  let (hour, rest) ← fixedDigits? 2 text
  let (minute, rest) ← fixedDigits? 2 (← after? ':' rest)
  if hour < 24 ∧ minute < 60 then pure rest else none

/-- What follows a time. -/
def afterTime? (text : List Char) : Option (List Char) := (afterClock? text).bind afterSeconds?

/-- Whether a text is an offset from universal time, or nothing. -/
def isOffset : List Char → Bool
  | [] => true
  | [c] => c = 'Z' || c = 'z'
  | c :: rest => (c = '+' || c = '-') && afterClock? rest = some []

/-- Whether a text is a time, or a date with or without a time. -/
def isMoment (text : List Char) : Bool :=
  afterTime? text = some []
    || match afterDate? text with
      | some [] => true
      | some (c :: rest) => (c = 'T' || c = 't' || c = ' ') && (afterTime? rest).any isOffset
      | none => false

/-! ## All bare values -/

/-- The datum of a bare value. -/
def scalar? (text : List Char) : Option Datum :=
  match String.ofList text with
  | "true" => some (.bool true)
  | "false" => some (.bool false)
  | _ =>
    (readInteger? text).orElse fun _ =>
      (readReal? text).orElse fun _ => if isMoment text then some .moment else none

/-- The characters of the bare value at the front of a text, and what follows. -/
def scalarRun (text : List Char) : List Char × List Char :=
  let run := text.takeWhile isScalarChar
  match afterDate? run, text.dropWhile isScalarChar with
  | some [], ' ' :: c :: rest =>
    if c.isDigit then
      (run ++ ' ' :: (c :: rest).takeWhile isScalarChar, (c :: rest).dropWhile isScalarChar)
    else (run, ' ' :: c :: rest)
  | _, rest => (run, rest)

/-- The bare value at the front of a text, and what follows. -/
def readScalar (text : List Char) : Option (Datum × List Char) :=
  let (run, rest) := scalarRun text
  (scalar? run).map fun datum => (datum, rest)

end Toml

end ModuleRoutes
