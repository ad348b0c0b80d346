import Mathlib.Data.List.TakeWhile
import ModuleRoutes.Proofs.Text.Separated

/-!
# Trimming

Trimming takes blanks at the ends of a text away and nothing else
(`ModuleRoutes.Text.exists_of_trim`), and no blank is left at an end; so it finds the text that
blanks were put around (`ModuleRoutes.Text.trim_append`). Dropping the characters of any class at
the end of a text does the same at that end.
-/

namespace ModuleRoutes

namespace Text

theorem exists_of_dropEndWhile (p : Char → Bool) (text : List Char) :
    ∃ after, text = dropEndWhile p text ++ after ∧ ∀ c ∈ after, p c = true := by
  refine ⟨(text.reverse.takeWhile p).reverse, ?_, fun c member => ?_⟩
  · rw [dropEndWhile, ← List.reverse_append, List.takeWhile_append_dropWhile, List.reverse_reverse]
  · exact List.mem_takeWhile_imp (List.mem_reverse.mp member)

theorem not_of_getLast?_dropEndWhile {p : Char → Bool} {text : List Char} {c : Char}
    (last : (dropEndWhile p text).getLast? = some c) : p c = false := by
  rw [dropEndWhile, List.getLast?_reverse] at last
  have kept := List.head?_dropWhile_not p text.reverse
  rw [last] at kept
  exact kept

/-- Trimming takes blanks away and nothing else. -/
theorem exists_of_trim (text : List Char) :
    ∃ before after, text = before ++ trim text ++ after ∧
      (∀ c ∈ before, isBlank c = true) ∧ ∀ c ∈ after, isBlank c = true := by
  obtain ⟨after, split, blankAfter⟩ := exists_of_dropEndWhile isBlank (text.dropWhile isBlank)
  refine ⟨text.takeWhile isBlank, after, ?_, fun c => List.mem_takeWhile_imp, blankAfter⟩
  rw [trim, stripWhile, List.append_assoc, ← split, List.takeWhile_append_dropWhile]

theorem trim_eq_self {text : List Char} (begins : ∀ c, text.head? = some c → isBlank c = false)
    (ends : ∀ c, text.getLast? = some c → isBlank c = false) : trim text = text := by
  have kept : text.dropWhile isBlank = text := by
    cases text with
    | nil => rfl
    | cons c rest => exact List.dropWhile_cons_of_neg (by simp [begins c rfl])
  rw [trim, stripWhile, kept, dropEndWhile_of_getLast? ends]

/-- Characters of the class behind a text are dropped with those at its end. -/
theorem dropEndWhile_append {p : Char → Bool} {after : List Char} (all : ∀ c ∈ after, p c = true)
    (text : List Char) : dropEndWhile p (text ++ after) = dropEndWhile p text := by
  rw [dropEndWhile, List.reverse_append,
    List.dropWhile_append_of_pos fun c member => all c (List.mem_reverse.mp member)]
  rfl

/-- Trimming takes the blanks around a text that neither begins nor ends with one. -/
theorem trim_append {before text after : List Char} (blankBefore : ∀ c ∈ before, isBlank c = true)
    (blankAfter : ∀ c ∈ after, isBlank c = true) (nonempty : text ≠ [])
    (begins : ∀ c, text.head? = some c → isBlank c = false)
    (ends : ∀ c, text.getLast? = some c → isBlank c = false) :
    trim (before ++ text ++ after) = text := by
  have kept : (text ++ after).dropWhile isBlank = text ++ after := by
    cases text with
    | nil => exact absurd rfl nonempty
    | cons c rest =>
        rw [List.cons_append]
        exact List.dropWhile_cons_of_neg (by simp [begins c rfl])
  rw [trim, stripWhile, List.append_assoc, List.dropWhile_append_of_pos blankBefore, kept,
    dropEndWhile_append blankAfter, dropEndWhile_of_getLast? ends]

theorem not_isBlank_of_getLast?_trim {text : List Char} {c : Char}
    (last : (trim text).getLast? = some c) : isBlank c = false :=
  not_of_getLast?_dropEndWhile last

theorem not_isBlank_of_head?_trim {text : List Char} {c : Char}
    (first : (trim text).head? = some c) : isBlank c = false := by
  obtain ⟨after, split, -⟩ := exists_of_dropEndWhile isBlank (text.dropWhile isBlank)
  have begins : (text.dropWhile isBlank).head? = some c := by
    rw [split, List.head?_append]
    exact congrArg (Option.or · after.head?) first
  have kept := List.head?_dropWhile_not isBlank text
  rw [begins] at kept
  exact kept

end Text

end ModuleRoutes
