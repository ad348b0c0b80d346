import ModuleRoutes.Text.Segments

/-!
# Plural nouns

The plural of a noun in kebab case changes its last word only. A word that already ends in `s`
counts as plural, except after another `s`, so that a plural stays as it is.
-/

namespace ModuleRoutes

namespace Name

/-- The endings after which a plural takes `es`. -/
def sibilants : List (List Char) := [['s', 's'], ['x'], ['z'], ['c', 'h'], ['s', 'h']]

def isVowel (c : Char) : Bool := c = 'a' || c = 'e' || c = 'i' || c = 'o' || c = 'u'

def pluralWord (word : List Char) : List Char :=
  if sibilants.any fun ending => Text.endsWith ending word then word ++ ['e', 's']
  else
    match word.reverse with
    | 's' :: _ => word
    | 'y' :: before :: rest =>
      if isVowel before then word ++ ['s'] else (before :: rest).reverse ++ ['i', 'e', 's']
    | _ => word ++ ['s']

/-- The pieces of a text with the last one changed. -/
def mapLast {α : Type} (f : α → α) : List α → List α
  | [] => []
  | [last] => [f last]
  | first :: next :: rest => first :: mapLast f (next :: rest)

def plural (noun : String) : String :=
  String.ofList (Text.joinWith ['-'] (mapLast pluralWord (Text.splitOn '-' noun.toList)))

end Name

end ModuleRoutes
