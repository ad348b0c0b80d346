import Mathlib.Data.List.Basic
import ModuleRoutes.Text.Segments

/-!
# Finding a pattern in a text

A pattern cannot occur where one of its characters is missing, and no occurrence reaches across a
character that the pattern does not have. So the search may skip everything up to such a character
(`ModuleRoutes.Text.afterFirst?_append_cons`), which is how the first occurrence is found in a text
of which only some parts are known.
-/

namespace ModuleRoutes

namespace Text

variable {pattern text before rest : List Char} {c d : Char}

theorem afterStart?_eq_some_iff :
    afterStart? pattern text = some rest ↔ text = pattern ++ rest := by
  induction pattern generalizing text with
  | nil =>
      rw [afterStart?, Option.some.injEq]
      exact Iff.rfl
  | cons p pattern ih =>
      cases text with
      | nil => simp [afterStart?]
      | cons c text =>
          rw [afterStart?, List.cons_append, List.cons.injEq]
          by_cases same : p = c
          · rw [if_pos same, ih]
            exact (and_iff_right same.symm).symm
          · rw [if_neg same]
            exact iff_of_false nofun fun equal => same equal.1.symm

/-- A search finds a pattern exactly where it is a part of the text. -/
theorem isSome_afterFirst?_iff : (afterFirst? pattern text).isSome = true ↔ pattern <:+: text := by
  induction text with
  | nil =>
      rw [afterFirst?, List.infix_nil]
      split
      · next empty => exact iff_of_true rfl empty
      · next nonempty => exact iff_of_false nofun nonempty
  | cons c text ih =>
      rw [afterFirst?, List.infix_cons_iff, ← ih]
      cases begins : afterStart? pattern (c :: text) with
      | some after =>
          exact iff_of_true rfl (.inl ⟨after, (afterStart?_eq_some_iff.mp begins).symm⟩)
      | none =>
          refine (or_iff_right ?_).symm
          rintro ⟨after, shape⟩
          rw [afterStart?_eq_some_iff.mpr shape.symm] at begins
          cases begins

/-- A text that lacks a character of a pattern does not begin with the pattern, whatever follows
behind a character that the pattern does not have. -/
theorem afterStart?_append_cons_eq_none (needed : d ∈ pattern) (lacking : d ∉ before)
    (foreign : c ∉ pattern) : afterStart? pattern (before ++ c :: rest) = none := by
  by_contra found
  obtain ⟨after, begins⟩ := Option.ne_none_iff_exists'.mp found
  have shape := afterStart?_eq_some_iff.mp begins
  rcases List.append_eq_append_iff.mp shape with ⟨more, longer, _⟩ | ⟨more, shorter, _⟩
  · -- The pattern would go on behind the text, and so with the foreign character.
    cases more with
    | nil =>
        rw [List.append_nil] at longer
        exact lacking (longer ▸ needed)
    | cons first more =>
        rw [longer, List.append_assoc, List.append_cancel_left_eq, List.cons_append,
          List.cons.injEq] at shape
        exact foreign (by rw [longer, shape.1]; simp)
  · rw [shorter] at lacking
    exact lacking (List.mem_append_left _ needed)

theorem afterFirst?_append_self (nonempty : pattern ≠ []) :
    afterFirst? pattern (pattern ++ rest) = some rest := by
  obtain ⟨p, pattern, rfl⟩ := List.exists_cons_of_ne_nil nonempty
  rw [List.cons_append, afterFirst?, ← List.cons_append, afterStart?_eq_some_iff.mpr rfl]

/-- A search passes over characters that the pattern does not begin with. -/
theorem afterFirst?_append_of_head (nonempty : pattern ≠ [])
    (apart : ∀ other ∈ before, pattern.head? ≠ some other) :
    afterFirst? pattern (before ++ rest) = afterFirst? pattern rest := by
  obtain ⟨p, pattern, rfl⟩ := List.exists_cons_of_ne_nil nonempty
  induction before with
  | nil => rfl
  | cons b before ih =>
      have different : p ≠ b := fun same => apart b List.mem_cons_self (by rw [same]; rfl)
      rw [List.cons_append, afterFirst?, afterStart?, if_neg different]
      exact ih fun other member => apart other (List.mem_cons_of_mem _ member)

theorem afterFirst?_append_cons (needed : d ∈ pattern) (lacking : d ∉ before)
    (foreign : c ∉ pattern) :
    afterFirst? pattern (before ++ c :: rest) = afterFirst? pattern rest := by
  induction before with
  | nil =>
      rw [List.nil_append, afterFirst?]
      have passed := @afterStart?_append_cons_eq_none pattern [] rest c d needed lacking foreign
      rw [List.nil_append] at passed
      rw [passed]
  | cons b before ih =>
      have passed := @afterStart?_append_cons_eq_none pattern (b :: before) rest c d needed lacking
        foreign
      rw [List.cons_append] at passed
      rw [List.cons_append, afterFirst?, passed]
      exact ih fun member => lacking (List.mem_cons_of_mem _ member)

/-- A search passes over pieces that each lack a character of the pattern. -/
theorem afterFirst?_joinWith {separator : Char} {pieces : List (List Char)}
    (nonempty : pieces ≠ []) (lacking : ∀ piece ∈ pieces, ∃ d ∈ pattern, d ∉ piece)
    (between : separator ∉ pattern) (foreign : c ∉ pattern) :
    afterFirst? pattern (joinWith [separator] pieces ++ c :: rest) = afterFirst? pattern rest := by
  induction pieces with
  | nil => exact absurd rfl nonempty
  | cons piece pieces ih =>
      obtain ⟨d, needed, lacks⟩ := lacking piece List.mem_cons_self
      cases pieces with
      | nil => exact afterFirst?_append_cons needed lacks foreign
      | cons next pieces =>
          have later := ih (List.cons_ne_nil _ _) fun other member =>
            lacking other (List.mem_cons_of_mem _ member)
          rw [joinWith, List.append_assoc, List.append_assoc, List.singleton_append,
            afterFirst?_append_cons needed lacks between]
          exact later

theorem afterFirst?_eq_none (needed : d ∈ pattern) (lacking : d ∉ text) :
    afterFirst? pattern text = none := by
  induction text with
  | nil =>
      have nonempty : pattern ≠ [] := List.ne_nil_of_mem needed
      rw [afterFirst?, if_neg nonempty]
  | cons c text ih =>
      cases begins : afterStart? pattern (c :: text) with
      | some after =>
          rw [afterStart?_eq_some_iff.mp begins] at lacking
          exact absurd (List.mem_append_left _ needed) lacking
      | none =>
          rw [afterFirst?, begins]
          exact ih fun member => lacking (List.mem_cons_of_mem _ member)

/-- A character that a pattern does not have is no part of the pattern at the end of a text. -/
theorem afterStart?_concat (foreign : c ∉ pattern) :
    afterStart? pattern (text ++ [c]) = (afterStart? pattern text).map (· ++ [c]) := by
  induction pattern generalizing text with
  | nil => rfl
  | cons p pattern ih =>
      have different : p ≠ c := fun same => foreign (same ▸ List.mem_cons_self)
      have later : c ∉ pattern := fun member => foreign (List.mem_cons_of_mem _ member)
      cases text with
      | nil => exact if_neg different
      | cons first text =>
          rw [List.cons_append, afterStart?, afterStart?]
          split
          · exact ih later
          · rfl

/-- A search does not see a character at the end that the pattern does not have. -/
theorem afterFirst?_concat (nonempty : pattern ≠ []) (foreign : c ∉ pattern) :
    afterFirst? pattern (text ++ [c]) = (afterFirst? pattern text).map (· ++ [c]) := by
  induction text with
  | nil =>
      have absent : afterStart? pattern [c] = none := by
        rw [← List.nil_append [c], afterStart?_concat foreign]
        cases pattern with
        | nil => exact absurd rfl nonempty
        | cons p pattern => rfl
      simp only [List.nil_append, afterFirst?, absent, if_neg nonempty, Option.map_none]
  | cons first text ih =>
      have begins := @afterStart?_concat pattern (first :: text) c foreign
      rw [List.cons_append] at begins
      rw [List.cons_append, afterFirst?, afterFirst?, begins]
      cases afterStart? pattern (first :: text) with
      | some after => rfl
      | none => exact ih

end Text

end ModuleRoutes
