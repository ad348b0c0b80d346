import ModuleRoutes.Text.Digits

/-!
# Texts and keys in TOML

A text stands between double quotes, where a backslash escapes, or between single quotes, where
every character stands for itself. Three quotes in place of one open a text that may hold line
breaks; a break right after them does not count, and up to two quotes may stand before the closing
three. A key is a text on one line, or a bare run of letters, digits, underscores and hyphens.
-/

namespace ModuleRoutes

namespace Toml

open Text

/-- Whether a character is a blank within a line. -/
def isSpace (c : Char) : Bool := c = ' ' || c = '\t'

/-- A text without the blanks at its front. -/
def skipSpace (text : List Char) : List Char := text.dropWhile isSpace

/-- Whether a character may stand in comments and texts. -/
def isPlain (c : Char) : Bool := c = '\t' || (32 ≤ c.toNat && c.toNat ≠ 127)

/-- The character that a single letter stands for after a backslash. -/
def shortEscape? (c : Char) : Option Char :=
  if c = '"' ∨ c = '\\' then some c
  else if c = 'b' then some (Char.ofNat 8)
  else if c = 't' then some '\t'
  else if c = 'n' then some '\n'
  else if c = 'f' then some (Char.ofNat 12)
  else if c = 'r' then some '\r'
  else if c = 'e' then some (Char.ofNat 27)
  else none

/-- The character whose number hexadecimal digits write. -/
def codePoint? (digits : List Char) : Option Char := do
  let number ← hexNumber? digits
  if number < 0xD800 ∨ (0xE000 ≤ number ∧ number < 0x110000) then pure (Char.ofNat number) else none

/-- A text and what follows it, with one more character in front. -/
def push (c : Char) (read : Option (List Char × List Char)) : Option (List Char × List Char) :=
  read.map fun (text, rest) => (c :: text, rest)

/-- Whether a reader stands behind a backslash that ends a line: not at all, before the line break,
or in the blanks and breaks after it. -/
inductive Fold where
  | off
  | seeking
  | skipping
deriving DecidableEq, Repr

/-- The text up to the closing quote or quotes, and what follows. -/
def readQuoted (multi : Bool) : Fold → List Char → Option (List Char × List Char)
  | _, [] => none
  | .seeking, c :: rest =>
    if isSpace c then readQuoted multi .seeking rest
    else if c = '\n' then readQuoted multi .skipping rest
    else if c = '\r' then
      match rest with
      | '\n' :: after => readQuoted multi .skipping after
      | _ => none
    else none
  | fold, c :: rest =>
    if fold = .skipping ∧ (isSpace c ∨ c = '\n') then readQuoted multi .skipping rest
    else if fold = .skipping ∧ c = '\r' then
      match rest with
      | '\n' :: after => readQuoted multi .skipping after
      | _ => none
    else if c = '"' then
      if !multi then some ([], rest)
      else
        match rest with
        | '"' :: '"' :: '"' :: '"' :: after => some (['"', '"'], after)
        | '"' :: '"' :: '"' :: after => some (['"'], after)
        | '"' :: '"' :: after => some ([], after)
        | _ => push '"' (readQuoted multi .off rest)
    else if c = '\\' then
      match rest with
      | 'u' :: d₁ :: d₂ :: d₃ :: d₄ :: after =>
        (codePoint? [d₁, d₂, d₃, d₄]).bind fun value => push value (readQuoted multi .off after)
      | 'U' :: d₁ :: d₂ :: d₃ :: d₄ :: d₅ :: d₆ :: d₇ :: d₈ :: after =>
        (codePoint? [d₁, d₂, d₃, d₄, d₅, d₆, d₇, d₈]).bind fun value =>
          push value (readQuoted multi .off after)
      | 'x' :: d₁ :: d₂ :: after =>
        (codePoint? [d₁, d₂]).bind fun value => push value (readQuoted multi .off after)
      | d :: after =>
        match shortEscape? d with
        | some value => push value (readQuoted multi .off after)
        | none => if multi then readQuoted multi .seeking (d :: after) else none
      | [] => none
    else if multi ∧ c = '\n' then push c (readQuoted multi .off rest)
    else if c = '\r' then
      match rest with
      | '\n' :: after =>
        if multi then push '\r' (push '\n' (readQuoted multi .off after)) else none
      | _ => none
    else if isPlain c then push c (readQuoted multi .off rest)
    else none

/-- The literal text up to the closing quote or quotes, and what follows. -/
def readLiteral (multi : Bool) : List Char → Option (List Char × List Char)
  | [] => none
  | c :: rest =>
    if c = '\'' then
      if !multi then some ([], rest)
      else
        match rest with
        | '\'' :: '\'' :: '\'' :: '\'' :: after => some (['\'', '\''], after)
        | '\'' :: '\'' :: '\'' :: after => some (['\''], after)
        | '\'' :: '\'' :: after => some ([], after)
        | _ => push '\'' (readLiteral multi rest)
    else if multi ∧ c = '\n' then push c (readLiteral multi rest)
    else if c = '\r' then
      match rest with
      | '\n' :: after => if multi then push '\r' (push '\n' (readLiteral multi after)) else none
      | _ => none
    else if isPlain c then push c (readLiteral multi rest)
    else none

/-- A text without the line break at its front. -/
def dropBreak : List Char → List Char
  | '\n' :: rest => rest
  | '\r' :: '\n' :: rest => rest
  | text => text

/-- The quoted text at the front of a text in any form, and what follows. -/
def readString : List Char → Option (List Char × List Char)
  | '"' :: '"' :: '"' :: rest => readQuoted true .off (dropBreak rest)
  | '"' :: rest => readQuoted false .off rest
  | '\'' :: '\'' :: '\'' :: rest => readLiteral true (dropBreak rest)
  | '\'' :: rest => readLiteral false rest
  | _ => none

/-- Whether a character may stand in a bare key. -/
def isBareKeyChar (c : Char) : Bool := c.isAlphanum || c = '_' || c = '-'

/-- One part of a key, and what follows. -/
def readKeyPart : List Char → Option (String × List Char)
  | '"' :: rest => (readQuoted false .off rest).map fun (key, after) => (String.ofList key, after)
  | '\'' :: rest => (readLiteral false rest).map fun (key, after) => (String.ofList key, after)
  | text =>
    match text.takeWhile isBareKeyChar with
    | [] => none
    | key => some (String.ofList key, text.dropWhile isBareKeyChar)

/-- The parts of a key joined by dots, and what follows the key and the blanks behind it. The first
argument bounds the number of parts. -/
def readKey : Nat → List Char → Option (List String × List Char)
  | 0, _ => none
  | bound + 1, text => do
    let (part, rest) ← readKeyPart (skipSpace text)
    match skipSpace rest with
    | '.' :: more => (readKey bound more).map fun (parts, after) => (part :: parts, after)
    | after => pure ([part], after)

/-- What follows the blanks, line breaks and comments at the front of a text, none when they are
malformed. -/
def skipLines (inComment : Bool) : List Char → Option (List Char)
  | [] => some []
  | c :: rest =>
    if c = '\n' then skipLines false rest
    else if c = '\r' then
      match rest with
      | '\n' :: after => skipLines false after
      | _ => none
    else if inComment then if isPlain c then skipLines true rest else none
    else if isSpace c then skipLines false rest
    else if c = '#' then skipLines true rest
    else some (c :: rest)

end Toml

end ModuleRoutes
