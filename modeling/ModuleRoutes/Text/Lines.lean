import ModuleRoutes.Text.Segments

/-!
# The lines of a text

A line of a text goes up to its ending, a newline that a carriage return may stand before. The last
line needs no ending, and behind the last ending there is no line.
-/

namespace ModuleRoutes

namespace Text

/-- A line without the carriage return that its ending may begin with. -/
def dropReturn (line : List Char) : List Char :=
  if line.getLast? = some '\r' then line.dropLast else line

/-- The lines that the pieces of a text between its newlines are: every piece but the last has an
ending, and the last one is a line if there is anything in it. -/
def endedLines : List (List Char) → List (List Char)
  | [] => []
  | [last] => if last = [] then [] else [last]
  | line :: next :: rest => dropReturn line :: endedLines (next :: rest)

/-- The lines of a text, without their endings. -/
def lines (text : String) : List (List Char) := endedLines (splitOn '\n' text.toList)

theorem eq_dropReturn_or (line : List Char) :
    line = dropReturn line ∨ line = dropReturn line ++ ['\r'] := by
  unfold dropReturn
  split
  · next ends =>
    obtain ⟨before, rfl⟩ := List.getLast?_eq_some_iff.mp ends
    exact Or.inr (by rw [List.dropLast_concat])
  · exact Or.inl rfl

/-- The first line of a text is its first piece, but for the ending. -/
theorem exists_of_endedLines {pieces rest : List (List Char)} {line : List Char}
    (begins : endedLines pieces = line :: rest) :
    ∃ piece others, pieces = piece :: others ∧ (line = piece ∨ line = dropReturn piece) := by
  match pieces with
  | [] => cases begins
  | [last] =>
      rw [endedLines] at begins
      split at begins
      · cases begins
      · exact ⟨last, [], rfl, Or.inl (List.cons.inj begins).1.symm⟩
  | piece :: next :: others =>
      exact ⟨piece, next :: others, rfl, Or.inr (List.cons.inj begins).1.symm⟩

end Text

end ModuleRoutes
