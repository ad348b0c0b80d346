/-!
# UTF-8

Bytes are read as text either strictly, when any malformed byte makes the whole unreadable, or
leniently, when each longest malformed start of a character becomes a replacement character.
-/

namespace ModuleRoutes

namespace Text

/-- What stands at the front of a byte list: a character, or bytes that begin none. -/
inductive Utf8Step where
  | char (c : Char) (rest : List UInt8)
  | malformed (rest : List UInt8)

def isContinuation (b : UInt8) : Bool := 0x80 ≤ b.toNat && b.toNat < 0xC0

/-- The low six bits of a continuation byte. -/
def payload (b : UInt8) : Nat := b.toNat % 0x40

/-- Whether the second byte of a three byte character fits its first byte. -/
def fitsThree (first second : UInt8) : Bool :=
  if first.toNat = 0xE0 then 0xA0 ≤ second.toNat && second.toNat < 0xC0
  else if first.toNat = 0xED then 0x80 ≤ second.toNat && second.toNat < 0xA0
  else isContinuation second

/-- Whether the second byte of a four byte character fits its first byte. -/
def fitsFour (first second : UInt8) : Bool :=
  if first.toNat = 0xF0 then 0x90 ≤ second.toNat && second.toNat < 0xC0
  else if first.toNat = 0xF4 then 0x80 ≤ second.toNat && second.toNat < 0x90
  else isContinuation second

/-- The first character of a byte list, or the longest malformed start dropped. -/
def utf8Step (first : UInt8) (rest : List UInt8) : Utf8Step :=
  let lead := first.toNat
  if lead < 0x80 then .char (Char.ofNat lead) rest
  else if lead < 0xC2 then .malformed rest
  else if lead < 0xE0 then
    match rest with
    | b :: rest' =>
      if isContinuation b then .char (Char.ofNat ((lead - 0xC0) * 0x40 + payload b)) rest'
      else .malformed rest
    | [] => .malformed []
  else if lead < 0xF0 then
    match rest with
    | b :: rest' =>
      if fitsThree first b then
        match rest' with
        | c :: rest'' =>
          if isContinuation c then
            .char (Char.ofNat ((lead - 0xE0) * 0x1000 + payload b * 0x40 + payload c)) rest''
          else .malformed rest'
        | [] => .malformed []
      else .malformed rest
    | [] => .malformed []
  else if lead < 0xF5 then
    match rest with
    | b :: rest' =>
      if fitsFour first b then
        match rest' with
        | c :: rest'' =>
          if isContinuation c then
            match rest'' with
            | d :: rest''' =>
              if isContinuation d then
                .char (Char.ofNat ((lead - 0xF0) * 0x40000 + payload b * 0x1000 + payload c * 0x40
                  + payload d)) rest'''
              else .malformed rest''
            | [] => .malformed []
          else .malformed rest'
        | [] => .malformed []
      else .malformed rest
    | [] => .malformed []
  else .malformed rest

/-- The text of a byte list of a given length bound, each malformed start as `bad`. -/
def utf8Chars (bad : Option Char) : Nat → List UInt8 → Option (List Char)
  | _, [] => some []
  | 0, _ :: _ => none
  | bound + 1, first :: rest =>
    match utf8Step first rest with
    | .char c after => (utf8Chars bad bound after).map (c :: ·)
    | .malformed after =>
      match bad with
      | some replacement => (utf8Chars bad bound after).map (replacement :: ·)
      | none => none

/-- The text of a byte list, if every byte belongs to a well-formed character. -/
def decodeUtf8? (bytes : List UInt8) : Option (List Char) :=
  utf8Chars none bytes.length bytes

/-- The text of a byte list with a replacement character for each malformed start. -/
def decodeUtf8 (bytes : List UInt8) : List Char :=
  (utf8Chars (some '\uFFFD') bytes.length bytes).getD []

def encodeUtf8 (text : List Char) : List UInt8 := text.flatMap String.utf8EncodeChar

end Text

end ModuleRoutes
