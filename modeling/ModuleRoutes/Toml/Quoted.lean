import ModuleRoutes.Text.Quoted

/-!
# Writing texts in TOML

A text is written in the first form that shows it as it is: between double quotes, between single
quotes, over several lines between three double quotes, or between three single quotes. A text that
none of them can show takes escapes between double quotes, three of them when it has line breaks.
-/

namespace ModuleRoutes

namespace Toml

/-- The length of the longest run of a character. `current` counts the run that is under way. -/
def longestRun (c : Char) (current : Nat) : List Char → Nat
  | [] => current
  | d :: rest =>
    if d = c then longestRun c (current + 1) rest else max current (longestRun c 0 rest)

/-- Whether a character can only be written by an escape. -/
def needsEscape (c : Char) : Bool :=
  (c.toNat < 32 && c ≠ '\t' && c ≠ '\n') || c.toNat = 127

/-- The forms that a text can be written in. -/
inductive QuoteForm where
  | basic
  | literal
  | basicLines
  | literalLines
deriving DecidableEq, Repr

/-- The form that a text is written in. -/
def formFor (text : List Char) : QuoteForm :=
  let controls := text.any needsEscape
  let backslash := text.contains '\\'
  let lines := text.contains '\n'
  if !controls && !backslash && !text.contains '"' && !lines then .basic
  else if !controls && !text.contains '\'' && !lines then .literal
  else if !controls && !backslash && longestRun '"' 0 text ≤ 2 then .basicLines
  else if !controls && longestRun '\'' 0 text ≤ 2 then .literalLines
  else if lines then .basicLines
  else .basic

/-- A number below 256 as four hexadecimal digits in upper case. -/
def fourHexDigits (n : Nat) : List Char :=
  let digits := (Text.hexDigits n).map Char.toUpper
  List.replicate (4 - digits.length) '0' ++ digits

/-- A text inside double quotes. `quotes` counts the quotes just before; over several lines only the
third in a row is escaped, and line breaks stand for themselves. -/
def escapeText (lines : Bool) (quotes : Nat) : List Char → List Char
  | [] => []
  | c :: rest =>
    if c = '"' then
      if lines ∧ quotes < 2 then c :: escapeText lines (quotes + 1) rest
      else '\\' :: '"' :: escapeText lines 0 rest
    else
      let written :=
        if c = '\\' then ['\\', '\\']
        else if c = '\t' then ['\\', 't']
        else if c = '\n' then if lines then ['\n'] else ['\\', 'n']
        else if c = '\r' then ['\\', 'r']
        else if c.toNat = 8 then ['\\', 'b']
        else if c.toNat = 12 then ['\\', 'f']
        else if needsEscape c then '\\' :: 'u' :: fourHexDigits c.toNat
        else [c]
      written ++ escapeText lines 0 rest

/-- The break after an opening of three quotes, which only a text with breaks has. -/
def openingBreak (text : List Char) : List Char := if text.contains '\n' then ['\n'] else []

def quote (value : String) : List Char :=
  let text := value.toList
  match formFor text with
  | .basic => '"' :: escapeText false 0 text ++ ['"']
  | .literal => '\'' :: text ++ ['\'']
  | .basicLines =>
    ['"', '"', '"'] ++ openingBreak text ++ escapeText true 0 text ++ ['"', '"', '"']
  | .literalLines => ['\'', '\'', '\''] ++ openingBreak text ++ text ++ ['\'', '\'', '\'']

end Toml

end ModuleRoutes
