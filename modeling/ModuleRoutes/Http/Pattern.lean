import ModuleRoutes.Text.Segments

/-!
# Patterns of paths

A router stores each path as a pattern: literal characters, parameters in braces that take the rest
of a segment, and at the very end perhaps a parameter with a star that takes the rest of the path. A
brace that is written twice stands for itself. A request may match several patterns; where two of
them part, the literal one is preferred to the parameter.
-/

namespace ModuleRoutes

namespace Http

/-- A piece of a pattern. -/
inductive Piece where
  | literal (c : Char)
  | parameter (name : List Char)
  | remainder (name : List Char)
deriving DecidableEq, Repr

/-- A pattern of paths. -/
abbrev Pattern := List Piece

/-- The characters of a pattern's text, each with whether it was written twice to stand for itself.
-/
def unescape : List Char → List (Char × Bool)
  | '\x7b' :: '\x7b' :: rest => ('\x7b', true) :: unescape rest
  | '\x7d' :: '\x7d' :: rest => ('\x7d', true) :: unescape rest
  | c :: rest => (c, false) :: unescape rest
  | [] => []

/-- The rest of a parameter's name up to the closing brace, and what follows. Slashes and stars
cannot stand in a name. -/
def nameRest? : List (Char × Bool) → Option (List Char × List (Char × Bool))
  | [] => none
  | (c, escaped) :: rest =>
    if c = '\x7d' ∧ !escaped then some ([], rest)
    else if c = '*' ∨ c = '/' then none
    else (nameRest? rest).map fun (name, after) => (c :: name, after)

theorem length_nameRest? {text after : List (Char × Bool)} {name : List Char}
    (h : nameRest? text = some (name, after)) : after.length < text.length := by
  induction text generalizing name with
  | nil => simp [nameRest?] at h
  | cons head rest ih =>
    obtain ⟨c, escaped⟩ := head
    unfold nameRest? at h
    split at h
    · simp only [Option.some.injEq, Prod.mk.injEq] at h
      simp [← h.2]
    · split at h
      · simp at h
      · obtain ⟨⟨inner, after'⟩, found, same⟩ := Option.map_eq_some_iff.1 h
        simp only [Prod.mk.injEq] at same
        have shorter := @ih inner (by rw [found, same.2])
        simp only [List.length_cons]
        omega

/-- The pieces of a pattern, none when its braces do not pair, a parameter has no name, or anything
but a slash follows one. -/
def piecesOf? : List (Char × Bool) → Option Pattern
  | [] => some []
  | [(c, escaped)] =>
    if (c = '\x7b' ∨ c = '\x7d') ∧ !escaped then none else some [.literal c]
  | (c, escaped) :: (first, marked) :: rest =>
    if c = '\x7d' ∧ !escaped then none
    else if c = '\x7b' ∧ !escaped then
      if first = '\x7d' then none
      else
        match found : nameRest? rest with
        | none => none
        | some (name, after) =>
          if first = '*' then if name = [] ∨ after ≠ [] then none else some [.remainder name]
          else if after.head?.all fun next => next.1 = '/' then
            have := length_nameRest? found
            (piecesOf? after).map (.parameter (first :: name) :: ·)
          else none
    else (piecesOf? ((first, marked) :: rest)).map (.literal c :: ·)
termination_by text => text.length

/-- Whether a piece is a parameter that takes a segment. -/
def Piece.isParameter : Piece → Bool
  | .parameter _ => true
  | _ => false

/-- The greatest number of parameters of a pattern that take a segment. -/
def parameterLimit : Nat := 25

def Pattern.ofPath? (path : String) : Option Pattern :=
  (piecesOf? (unescape path.toList)).filter fun pattern =>
    pattern.countP Piece.isParameter ≤ parameterLimit

/-- Whether two patterns cannot both be stored: the same shape whatever the names, or one takes the
rest of the path where the other takes a segment. -/
def Pattern.conflicts : Pattern → Pattern → Bool
  | [], [] => true
  | .literal c :: left, .literal d :: right => c = d && conflicts left right
  | .parameter _ :: left, .parameter _ :: right => conflicts left right
  | .remainder _ :: _, .remainder _ :: _ => true
  | .remainder _ :: _, .parameter _ :: _ => true
  | .parameter _ :: _, .remainder _ :: _ => true
  | _, _ => false

/-- The values that a path gives the parameters of a pattern, if the path matches. A parameter takes
at least one character. -/
def Pattern.bind? : Pattern → List Char → Option (List (List Char × List Char))
  | [], [] => some []
  | [], _ :: _ => none
  | .literal c :: pattern, d :: path => if c = d then bind? pattern path else none
  | .literal _ :: _, [] => none
  | .parameter name :: pattern, path =>
    let value := path.takeWhile (· ≠ '/')
    if value = [] then none
    else (bind? pattern (path.dropWhile (· ≠ '/'))).map ((name, value) :: ·)
  | .remainder name :: _, path => if path = [] then none else some [(name, path)]

/-- Whether a pattern is preferred to another one that the same path matches. -/
def Pattern.preferred : Pattern → Pattern → Bool
  | .literal _ :: left, .literal _ :: right => preferred left right
  | .parameter _ :: left, .parameter _ :: right => preferred left right
  | .literal _ :: _, _ => true
  | .parameter _ :: _, .remainder _ :: _ => true
  | _, _ => false

end Http

end ModuleRoutes
