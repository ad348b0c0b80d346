import ModuleRoutes.Json.Value
import ModuleRoutes.Text.Digits
import ModuleRoutes.Text.Utf8

/-!
# Reading JSON

A text becomes a datum that holds everything up to the place where it stops being JSON. Reading
never fails: the datum says where the text is malformed, and a reader of a type reports that only if
it gets there.
-/

namespace ModuleRoutes

open Number Encoding Text

namespace Json

def isSpace (c : Char) : Bool := c = ' ' || c = '\n' || c = '\t' || c = '\r'

/-- A text without the spaces at its front. -/
def skipSpace (text : List Char) : List Char := text.dropWhile isSpace

/-! ## Texts -/

/-- The UTF-16 units of the text up to the closing quote, and what follows it. A character of the
text that is not escaped stands for itself, whatever its number of units. -/
def textUnits : List Char → Option (List (Char ⊕ Nat) × List Char)
  | [] => none
  | '"' :: rest => some ([], rest)
  | '\\' :: 'u' :: a :: b :: c :: d :: rest => do
    let unit ← hexNumber? [a, b, c, d]
    let (units, after) ← textUnits rest
    pure (.inr unit :: units, after)
  | '\\' :: c :: rest => do
    let plain ←
      if c = '"' ∨ c = '\\' ∨ c = '/' then some c
      else if c = 'b' then some (Char.ofNat 8)
      else if c = 'f' then some (Char.ofNat 12)
      else if c = 'n' then some '\n'
      else if c = 'r' then some '\r'
      else if c = 't' then some '\t'
      else none
    let (units, after) ← textUnits rest
    pure (.inl plain :: units, after)
  | c :: rest =>
    if c = '\\' ∨ c.toNat < 32 then none
    else do
      let (units, after) ← textUnits rest
      pure (.inl c :: units, after)

/-- The characters of a list of units, none when a surrogate stands alone. -/
def unitChars : List (Char ⊕ Nat) → Option (List Char)
  | [] => some []
  | .inl c :: rest => (unitChars rest).map (c :: ·)
  | .inr high :: .inr low :: rest =>
    if 0xD800 ≤ high ∧ high < 0xDC00 then
      if 0xDC00 ≤ low ∧ low < 0xE000 then
        (unitChars rest).map
          (Char.ofNat (0x10000 + (high - 0xD800) * 0x400 + (low - 0xDC00)) :: ·)
      else none
    else if 0xDC00 ≤ high ∧ high < 0xE000 then none
    else (unitChars (.inr low :: rest)).map (Char.ofNat high :: ·)
  | .inr unit :: rest =>
    if 0xD800 ≤ unit ∧ unit < 0xE000 then none
    else (unitChars rest).map (Char.ofNat unit :: ·)

/-- The text after an opening quote, none when it has no value, and what follows. -/
def readText (text : List Char) : Option (Option String × List Char) :=
  (textUnits text).map fun (units, rest) => ((unitChars units).map String.ofList, rest)

/-! ## Numbers -/

/-- The greatest significand that is kept. -/
def significandMax : Nat := twoTo 64 - 1

/-- A significand with digits put to its end as long as it stays within bounds, and the digits that
are left. -/
def absorb (significand : Nat) : List Char → Nat × List Char
  | [] => (significand, [])
  | c :: rest =>
    let next := significand * 10 + digitValue c
    if next ≤ significandMax then absorb next rest else (significand, c :: rest)

/-- Powers of ten are used up to this one. -/
def greatestPower : Nat := 308

/-- A number divided a number of times by the greatest power of ten, until it is zero. -/
def divideRepeatedly : Nat → Binary64 → Option Binary64
  | 0, x => some x
  | times + 1, x =>
    if x.significand = 0 then some x
    else (x.div (Binary64.ofTenTo greatestPower)).bind (divideRepeatedly times)

/-- A number divided by `10 ^ n`, in steps of the greatest power. -/
def divideByTens (x : Binary64) (n : Nat) : Option Binary64 :=
  let times := (n - 1) / greatestPower
  (divideRepeatedly times x).bind fun y => y.div (Binary64.ofTenTo (n - greatestPower * times))

/-- `significand · 10 ^ exponent` by one multiplication, or by as few divisions as it takes. -/
def scale (significand : Nat) (exponent : Int) : Option Binary64 :=
  let x := Binary64.ofNat significand
  if 0 ≤ exponent then
    if exponent ≤ greatestPower then x.mul (Binary64.ofTenTo exponent.toNat)
    else if significand = 0 then some x
    else none
  else divideByTens x (-exponent).toNat

def signed (negative : Bool) (x : Binary64) : Binary64 := { x with negative := negative }

/-- The parts of a number as it is written. -/
structure NumberText where
  negative : Bool
  whole : List Char
  fraction : List Char
  exponent : Option (Bool × List Char)

/-- The digits of an exponent as a number, unless they exceed `2 ^ 31 - 1`. -/
def exponentValue? (digits : List Char) : Option Nat :=
  let value := digits.foldl (fun n c => min (n * 10 + digitValue c) (twoTo 31)) 0
  if value < twoTo 31 then some value else none

/-- The number that a floating point text stands for. -/
def NumberText.real (number : NumberText) : Datum :=
  let (significand, unused) := absorb 0 number.whole
  let (significand, left) := absorb significand number.fraction
  let start : Int := (unused.length : Int) - ((number.fraction.length - left.length : Nat) : Int)
  let result : Option Binary64 :=
    match number.exponent with
    | none => scale significand start
    | some (negative, digits) =>
      match exponentValue? digits with
      | some value => scale significand (if negative then start - value else start + value)
      | none => if significand = 0 ∨ negative then some (Binary64.zero false) else none
  match result with
  | some x => .real (.finite (signed number.negative x))
  | none => .flawed

/-- The datum of a number: a whole number within 64 bits, or else floating point. -/
def NumberText.datum (number : NumberText) : Datum :=
  if number.fraction.isEmpty && number.exponent.isNone then
    let (significand, unused) := absorb 0 number.whole
    if !unused.isEmpty then number.real
    else if !number.negative then .int significand
    else if significand = 0 ∨ twoTo 63 < significand then number.real
    else .int (-(significand : Int))
  else number.real

/-- The exponent of a number, if one begins here: whether there is one, and what follows. -/
def readExponent (text : List Char) : Option (Option (Bool × List Char) × List Char) :=
  match text with
  | c :: rest =>
    if c = 'e' ∨ c = 'E' then
      let (negative, digitsText) :=
        match rest with
        | '+' :: rest' => (false, rest')
        | '-' :: rest' => (true, rest')
        | _ => (false, rest)
      let digits := digitsText.takeWhile Char.isDigit
      if digits.isEmpty then none
      else some (some (negative, digits), digitsText.dropWhile Char.isDigit)
    else some (none, text)
  | [] => some (none, text)

/-- The fraction of a number, if one begins here. -/
def readFraction (text : List Char) : Option (List Char × List Char) :=
  match text with
  | '.' :: rest =>
    let digits := rest.takeWhile Char.isDigit
    if digits.isEmpty then none else some (digits, rest.dropWhile Char.isDigit)
  | _ => some ([], text)

/-- The number at the front of a text after its sign. Leading zeros are malformed. -/
def readNumber (negative : Bool) (text : List Char) : Option (Datum × List Char) := do
  let whole := text.takeWhile Char.isDigit
  if whole.isEmpty ∨ (whole.head? = some '0' ∧ 1 < whole.length) then none
  else
    let (fraction, text) ← readFraction (text.dropWhile Char.isDigit)
    let (exponent, text) ← readExponent text
    pure (NumberText.datum ⟨negative, whole, fraction, exponent⟩, text)

/-! ## Values -/

/-- A token and what follows it, or the sign that the text is malformed here. -/
def orUnreadable : Option (Datum × List Char) → Datum × Option (List Char)
  | some (datum, rest) => (datum, some rest)
  | none => (.unreadable, none)

mutual

/-- The value at the front of a text and what follows it; nothing follows a malformed place. The
first argument bounds the number of steps. -/
def readValue : Nat → List Char → Datum × Option (List Char)
  | 0, _ => (.unreadable, none)
  | steps + 1, text =>
    match skipSpace text with
    | 'n' :: 'u' :: 'l' :: 'l' :: rest => (.null, some rest)
    | 't' :: 'r' :: 'u' :: 'e' :: rest => (.bool true, some rest)
    | 'f' :: 'a' :: 'l' :: 's' :: 'e' :: rest => (.bool false, some rest)
    | '"' :: rest =>
      match readText rest with
      | some (some value, after) => (.text value, some after)
      | some (none, after) => (.flawed, some after)
      | none => (.unreadable, none)
    | '[' :: rest =>
      match skipSpace rest with
      | ']' :: after => (.list [] true, some after)
      | _ =>
        let (items, after) := readItems steps rest
        (.list items after.isSome, after)
    | '\x7b' :: rest =>
      match skipSpace rest with
      | '\x7d' :: after => (.record [] true, some after)
      | _ =>
        let (fields, after) := readFields steps rest
        (.record fields after.isSome, after)
    | '-' :: rest => orUnreadable (readNumber true rest)
    | rest => orUnreadable (readNumber false rest)

/-- The items from here to the closing bracket, at least one. -/
def readItems : Nat → List Char → List Datum × Option (List Char)
  | 0, _ => ([.unreadable], none)
  | steps + 1, text =>
    match readValue steps text with
    | (item, none) => ([item], none)
    | (item, some rest) =>
      match skipSpace rest with
      | ',' :: rest' =>
        let (items, after) := readItems steps rest'
        (item :: items, after)
      | ']' :: rest' => ([item], some rest')
      | _ => ([item], none)

/-- The fields from here to the closing brace, at least one. -/
def readFields : Nat → List Char → List (Option String × Datum) × Option (List Char)
  | 0, _ => ([], none)
  | steps + 1, text =>
    match skipSpace text with
    | '"' :: rest =>
      match readText rest with
      | none => ([], none)
      | some (key, afterKey) =>
        match skipSpace afterKey with
        | ':' :: rest' =>
          match readValue steps rest' with
          | (value, none) => ([(key, value)], none)
          | (value, some rest'') =>
            match skipSpace rest'' with
            | ',' :: rest''' =>
              let (fields, after) := readFields steps rest'''
              ((key, value) :: fields, after)
            | '\x7d' :: rest''' => ([(key, value)], some rest''')
            | _ => ([(key, value)], none)
        | _ => ([(key, .unreadable)], none)
    | _ => ([], none)

end

/-- The datum of a whole text, and whether nothing but space follows it. -/
def readDocument (text : List Char) : Datum × Bool :=
  match readValue (text.length + 1) text with
  | (datum, some rest) => (datum, (skipSpace rest).isEmpty)
  | (datum, none) => (datum, false)

/-- Reads a value of a type from a JSON text. -/
def decode {α : Type} (read : Datum → Decoded α) (text : String) : Decoded α := do
  let (datum, ended) := readDocument text.toList
  let value ← read datum
  if ended then pure value else throw .syntaxFault

/-- Reads any JSON value whose containers are nested at most `depth` deep. -/
def parseWithin? (depth : Nat) (text : String) : Option Json :=
  match readDocument text.toList with
  | (datum, true) => ofDatum? depth datum
  | (_, false) => none

def parse? (text : String) : Option Json := parseWithin? depthLimit text

/-- The value of a text that is given by its bytes. Bytes that are no text have none. -/
def parseBytes? (bytes : List UInt8) : Option Json :=
  (Text.decodeUtf8? bytes).bind fun text => parse? (String.ofList text)

end Json

end ModuleRoutes
