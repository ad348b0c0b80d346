import ModuleRoutes.Text.Digits
import ModuleRoutes.Text.Segments
import ModuleRoutes.Text.Utf8

/-!
# Percent encoding and queries

A percent sign before two hexadecimal digits stands for a byte; any other percent sign stands for
itself. A query is a list of pairs in which a plus sign stands for a blank.
-/

namespace ModuleRoutes

namespace Http

open Text

/-- The bytes that a percent-encoded byte list stands for. -/
def percentDecode : List UInt8 → List UInt8
  | 0x25 :: high :: low :: rest =>
    match hexValue? (Char.ofNat high.toNat), hexValue? (Char.ofNat low.toNat) with
    | some h, some l => UInt8.ofNat (h * 16 + l) :: percentDecode rest
    | _, _ => 0x25 :: percentDecode (high :: low :: rest)
  | b :: rest => b :: percentDecode rest
  | [] => []

/-- The text that a part of a path stands for, none when its bytes are no text. -/
def decodePathPart? (part : List Char) : Option (List Char) :=
  decodeUtf8? (percentDecode (encodeUtf8 part))

/-- The text that a key or value of a query stands for. -/
def decodeQueryPart (part : List Char) : List Char :=
  decodeUtf8 (percentDecode (encodeUtf8 (replaceChar '+' [' '] part)))

/-- What stands before the first equals sign of a pair, and what follows it. -/
def splitPair : List Char → List Char × List Char
  | [] => ([], [])
  | c :: rest =>
    if c = '=' then ([], rest)
    else
      let (key, value) := splitPair rest
      (c :: key, value)

/-- The pairs of a query in order. -/
def queryPairs (query : List Char) : List (List Char × List Char) :=
  ((splitOn '&' query).filter fun part => !part.isEmpty).map fun part =>
    let (key, value) := splitPair part
    (decodeQueryPart key, decodeQueryPart value)

end Http

end ModuleRoutes
