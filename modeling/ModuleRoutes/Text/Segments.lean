/-!
# Separated text

Paths, keys, queries and lines are texts cut at a separator. `splitOn` cuts, `joinWith` puts the
pieces together again; a text always has at least one piece, and joining the pieces of a text gives
the text back.
-/

namespace ModuleRoutes

namespace Text

/-- The pieces of a text between the separators, at least one. -/
def splitOn (separator : Char) : List Char → List (List Char)
  | [] => [[]]
  | c :: rest =>
    if c = separator then [] :: splitOn separator rest
    else
      match splitOn separator rest with
      | [] => [[c]]
      | piece :: pieces => (c :: piece) :: pieces

/-- The pieces one after the other with a separator between neighbours. -/
def joinWith (separator : List Char) : List (List Char) → List Char
  | [] => []
  | [piece] => piece
  | piece :: next :: pieces => piece ++ separator ++ joinWith separator (next :: pieces)

theorem splitOn_ne_nil (separator : Char) (text : List Char) : splitOn separator text ≠ [] := by
  cases text with
  | nil => simp [splitOn]
  | cons c rest =>
    unfold splitOn
    split
    · simp
    · split <;> simp

/-- Joining the pieces of a text at the separator gives the text back. -/
theorem joinWith_splitOn (separator : Char) (text : List Char) :
    joinWith [separator] (splitOn separator text) = text := by
  induction text with
  | nil => rfl
  | cons c rest ih =>
    unfold splitOn
    split
    · next h =>
      subst h
      cases hpieces : splitOn c rest with
      | nil => exact absurd hpieces (splitOn_ne_nil c rest)
      | cons piece pieces => rw [hpieces] at ih; simp [joinWith, ih]
    · cases hpieces : splitOn separator rest with
      | nil => exact absurd hpieces (splitOn_ne_nil separator rest)
      | cons piece pieces =>
        rw [hpieces] at ih
        cases pieces with
        | nil => simpa [joinWith] using ih
        | cons next pieces => simpa [joinWith] using ih

def pieces (separator : Char) (text : String) : List String :=
  (splitOn separator text.toList).map String.ofList

/-- The pieces of a string that hold at least one character. -/
def segments (separator : Char) (text : String) : List String :=
  (pieces separator text).filter fun piece => !piece.isEmpty

/-- The strings one after the other with a separator between neighbours. -/
def joined (separator : String) (parts : List String) : String :=
  String.ofList (joinWith separator.toList (parts.map String.toList))

/-- What follows a given beginning of a text, if the text begins so. -/
def afterStart? : List Char → List Char → Option (List Char)
  | [], text => some text
  | _ :: _, [] => none
  | p :: start, c :: text => if p = c then afterStart? start text else none

/-- What follows the first occurrence of a pattern in a text. -/
def afterFirst? (pattern : List Char) : List Char → Option (List Char)
  | [] => if pattern = [] then some [] else none
  | c :: rest =>
    match afterStart? pattern (c :: rest) with
    | some after => some after
    | none => afterFirst? pattern rest

/-- Whether a text ends in a given way. -/
def endsWith (ending text : List Char) : Bool :=
  (afterStart? ending.reverse text.reverse).isSome

/-- A text filled with blanks on the right up to a width. -/
def padRight (width : Nat) (text : String) : String :=
  text ++ String.ofList (List.replicate (width - text.length) ' ')

/-- Every occurrence of a character replaced by a text. -/
def replaceChar (c : Char) (replacement : List Char) (text : List Char) : List Char :=
  text.flatMap fun d => if d = c then replacement else [d]

end Text

end ModuleRoutes
