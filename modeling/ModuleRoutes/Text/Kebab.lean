import ModuleRoutes.Text.Alphanumeric
import ModuleRoutes.Text.Casing
import ModuleRoutes.Text.Segments

/-!
# Kebab case

A text is cut into words at every character that is neither letter nor digit, then at the changes of
case: before an upper case letter that follows a lower case one, and before the last letter of a run
of upper case letters when a lower case letter follows. The words are written in lower case and
joined by hyphens, so that `bulkAllocate`, `Bulk_Allocate` and `bulk allocate` read the same.
-/

namespace ModuleRoutes

namespace Text

/-- What the letters of the current word have shown so far. -/
inductive CaseMode where
  | boundary
  | lower
  | upper
deriving DecidableEq, Repr

/-- The mode after a letter: characters without case leave it as it is. -/
def CaseMode.after (mode : CaseMode) (c : Char) : CaseMode :=
  if isLower c then .lower else if isUpper c then .upper else mode

/-- The runs of letters and digits of a text, with empty runs between neighbouring separators. -/
def wordRuns : List Char → List (List Char)
  | [] => [[]]
  | c :: rest =>
    match wordRuns rest with
    | [] => [[c]]
    | run :: runs => if isWordChar c then (c :: run) :: runs else [] :: run :: runs

/-- The pieces of one run at its changes of case. `piece` holds the letters since the last cut, the
latest first. -/
def caseCuts (mode : CaseMode) (piece : List Char) : List Char → List (List Char)
  | [] => [piece.reverse]
  | [c] => [(c :: piece).reverse]
  | c :: next :: rest =>
    if mode.after c = .lower ∧ isUpper next then
      (c :: piece).reverse :: caseCuts .boundary [] (next :: rest)
    else if mode = .upper ∧ isUpper c ∧ isLower next then
      piece.reverse :: caseCuts .boundary [c] (next :: rest)
    else caseCuts (mode.after c) (c :: piece) (next :: rest)

/-- A word in lower case; a capital sigma at its end takes its final form. -/
def lowerWord : List Char → List Char
  | [] => []
  | [c] => if c = 'Σ' then ['ς'] else lowerForm c
  | c :: rest => lowerForm c ++ lowerWord rest

/-- The words of a text, none empty, in their own case. -/
def caseWords (text : List Char) : List (List Char) :=
  ((wordRuns text).flatMap (caseCuts .boundary [])).filter fun word => !word.isEmpty

def kebab (text : List Char) : List Char :=
  joinWith ['-'] ((caseWords text).map lowerWord)

end Text

end ModuleRoutes
