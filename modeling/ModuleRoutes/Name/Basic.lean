import ModuleRoutes.Text.Blank
import ModuleRoutes.Text.Kebab

/-!
# Names

Module ids, resource nouns, action names and the segments of a mount are normalized before they
enter a path or a handler key, so that spellings of one name give one route. A normalized name is a
token: lower case ASCII letters and digits in words joined by single hyphens. Characters that no
token can hold are refused rather than dropped.
-/

namespace ModuleRoutes

/-- Why a text is no name. -/
inductive NameDefect where
  | foreign (c : Char)
  | empty
  | outside (token : String)
  | noSegments
deriving DecidableEq, Repr

/-- A text that is no name, and why. -/
structure InvalidName where
  raw : String
  defect : NameDefect
deriving DecidableEq, Repr

namespace InvalidName

def reason (fault : InvalidName) : String :=
  match fault.defect with
  | .foreign c => "character `" ++ c.toString ++ "` is outside [a-z0-9-]"
  | .empty => "name is empty"
  | .outside token => "`" ++ token ++ "` is outside [a-z0-9-]"
  | .noSegments => "mount path has no segments"

def message (fault : InvalidName) : String :=
  "invalid name `" ++ fault.raw ++ "`: " ++ fault.reason

end InvalidName

namespace Name

/-- Whether a character may stand in the spelling of a name. -/
def isNameChar (c : Char) : Bool :=
  (c.toNat < 128 && c.isAlphanum) || c = '-' || c = '_' || Text.isBlank c

/-- Whether a character may stand in a word of a token. -/
def isTokenChar (c : Char) : Bool := c.isLower || c.isDigit

/-- The spelling of a name without the blanks around it and the slashes behind it. -/
def strip (raw : List Char) : List Char :=
  Text.dropEndWhile (· = '/') (Text.trim raw)

/-- The token of a name. -/
def normalize (raw : String) : Except InvalidName String :=
  let spelling := strip raw.toList
  match spelling.find? fun c => !isNameChar c with
  | some c => .error ⟨raw, .foreign c⟩
  | none =>
    let token := Text.kebab spelling
    if token = [] then .error ⟨raw, .empty⟩
    else if token.all fun c => isTokenChar c || c = '-' then .ok (String.ofList token)
    else .error ⟨raw, .outside (String.ofList token)⟩

/-- The mount that a text spells: its non-empty segments, each normalized. -/
def normalizeMount (raw : String) : Except InvalidName String := do
  let tokens ← (Text.segments '/' raw).mapM normalize
  if tokens.isEmpty then throw ⟨raw, .noSegments⟩
  else pure ("/" ++ Text.joined "/" tokens)

end Name

end ModuleRoutes
