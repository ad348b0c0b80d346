import ModuleRoutes.Proofs.Text.Separated
import ModuleRoutes.Text.Kebab

/-!
# The words of a text

Every word of a text is made of letters and digits of the text (`ModuleRoutes.Text.mem_caseWords`),
and together the words hold all of them in order (`ModuleRoutes.Text.flatten_caseWords`). In a text
without upper case letters whose only separators are hyphens, the words are the pieces between the
hyphens (`ModuleRoutes.Text.caseWords_eq_splitOn`). A word is read on its own before separators
(`ModuleRoutes.Text.caseWords_append_separators`) and, if it ends in lower case, before an upper
case letter (`ModuleRoutes.Text.caseWords_append_of_isUpper`).
-/

namespace ModuleRoutes

namespace Text

theorem wordRuns_ne_nil (text : List Char) : wordRuns text ≠ [] := by
  cases text with
  | nil => simp [wordRuns]
  | cons c rest =>
      unfold wordRuns
      cases wordRuns rest with
      | nil => simp
      | cons run runs => by_cases letter : isWordChar c <;> simp [letter]

/-- The runs of a text are its letters and digits, none lost. -/
theorem flatten_wordRuns (text : List Char) : (wordRuns text).flatten = text.filter isWordChar := by
  induction text with
  | nil => rfl
  | cons c rest ih =>
      rw [wordRuns]
      cases runs : wordRuns rest with
      | nil => exact absurd runs (wordRuns_ne_nil rest)
      | cons run runs =>
          rw [runs, List.flatten_cons] at ih
          by_cases letter : isWordChar c = true
          · simp only [if_pos letter]
            rw [List.flatten_cons, List.cons_append, ih, List.filter_cons_of_pos letter]
          · simp only [if_neg letter]
            rw [List.flatten_cons, List.nil_append, List.flatten_cons, ih,
              List.filter_cons_of_neg letter]

/-- The pieces of a run are its characters, none lost. -/
theorem flatten_caseCuts (mode : CaseMode) (piece text : List Char) :
    (caseCuts mode piece text).flatten = piece.reverse ++ text := by
  induction text generalizing mode piece with
  | nil => simp [caseCuts]
  | cons c rest ih =>
      cases rest with
      | nil => simp [caseCuts]
      | cons next rest =>
          unfold caseCuts
          split
          · rw [List.flatten_cons, ih]
            simp
          · split
            · rw [List.flatten_cons, ih]
              simp
            · rw [ih]
              simp

/-- The words of a text are its letters and digits, none lost. -/
theorem flatten_caseWords (text : List Char) :
    (caseWords text).flatten = text.filter isWordChar := by
  have pieces : ∀ run, (caseCuts .boundary [] run).flatten = run :=
    fun run => flatten_caseCuts .boundary [] run
  rw [caseWords, List.flatten_filter_not_isEmpty, List.flatMap_def, List.flatten_flatten,
    List.map_map, ← flatten_wordRuns]
  exact congrArg List.flatten ((List.map_congr_left fun run _ => pieces run).trans (List.map_id _))

/-- The words of a text are not empty and hold letters and digits of the text. -/
theorem mem_caseWords {text word : List Char} (member : word ∈ caseWords text) :
    word ≠ [] ∧ ∀ c ∈ word, c ∈ text ∧ isWordChar c = true := by
  obtain ⟨found, nonempty⟩ := List.mem_filter.mp member
  obtain ⟨run, inRuns, cut⟩ := List.mem_flatMap.mp found
  refine ⟨by simpa using nonempty, fun c inWord => ?_⟩
  have inRun : c ∈ run := by
    rw [← List.nil_append run, ← List.reverse_nil, ← flatten_caseCuts .boundary [] run]
    exact List.mem_flatten_of_mem cut inWord
  have kept : c ∈ (wordRuns text).flatten := List.mem_flatten_of_mem inRuns inRun
  rw [flatten_wordRuns] at kept
  exact List.mem_filter.mp kept

/-- Where hyphens are the only separators, the runs stand between the hyphens. -/
theorem wordRuns_eq_splitOn {text : List Char}
    (plain : ∀ c ∈ text, c = '-' ∨ isWordChar c = true) : wordRuns text = splitOn '-' text := by
  induction text with
  | nil => rfl
  | cons c rest ih =>
      have runs := ih fun d inRest => plain d (List.mem_cons_of_mem _ inRest)
      rw [wordRuns, splitOn, runs]
      cases pieces : splitOn '-' rest with
      | nil => exact absurd pieces (splitOn_ne_nil _ _)
      | cons piece pieces =>
          by_cases hyphen : c = '-'
          · subst hyphen
            simp [show isWordChar '-' = false by decide]
          · have letter := (plain c List.mem_cons_self).resolve_left hyphen
            simp [hyphen, letter]

/-- A run without upper case letters is not cut. -/
theorem caseCuts_of_not_isUpper {mode : CaseMode} {piece text : List Char}
    (lower : ∀ c ∈ text, isUpper c = false) :
    caseCuts mode piece text = [piece.reverse ++ text] := by
  induction text generalizing mode piece with
  | nil => simp [caseCuts]
  | cons c rest ih =>
      cases rest with
      | nil => simp [caseCuts]
      | cons next rest =>
          have first := lower c List.mem_cons_self
          have second := lower next (by simp)
          rw [caseCuts, if_neg (by simp [second]), if_neg (by simp [first]),
            ih fun d inRest => lower d (List.mem_cons_of_mem _ inRest)]
          simp

/-- The words of a text without upper case letters are the pieces between its hyphens. -/
theorem caseWords_eq_splitOn {text : List Char}
    (plain : ∀ c ∈ text, c = '-' ∨ (isWordChar c = true ∧ isUpper c = false))
    (filled : ∀ piece ∈ splitOn '-' text, piece ≠ []) : caseWords text = splitOn '-' text := by
  have runs := wordRuns_eq_splitOn fun c inText => (plain c inText).imp_right And.left
  have uncut : ∀ run ∈ splitOn '-' text, caseCuts .boundary [] run = [run] := by
    intro run inRuns
    refine caseCuts_of_not_isUpper fun c inRun => ?_
    rcases plain c (mem_of_mem_splitOn inRuns inRun) with rfl | ⟨_, lower⟩
    · exact absurd inRun (not_mem_of_mem_splitOn inRuns)
    · exact lower
  rw [caseWords, runs, List.flatMap_congr uncut, List.flatMap_singleton', List.filter_eq_self]
  intro piece member
  simpa using filled piece member

/-! ## Words that follow one another -/

/-- A text without lower case letters is not cut. -/
theorem caseCuts_of_not_isLower {mode : CaseMode} {piece text : List Char} (start : mode ≠ .lower)
    (upper : ∀ c ∈ text, isLower c = false) :
    caseCuts mode piece text = [piece.reverse ++ text] := by
  induction text generalizing mode piece with
  | nil => simp [caseCuts]
  | cons c rest ih =>
      obtain ⟨first, later⟩ := List.forall_mem_cons.mp upper
      have after : mode.after c ≠ .lower := by
        rw [CaseMode.after, first, if_neg Bool.false_ne_true]
        split
        · exact nofun
        · exact start
      cases rest with
      | nil => simp [caseCuts]
      | cons next rest =>
          have second := later next List.mem_cons_self
          rw [caseCuts, if_neg (by simp [after]), if_neg (by simp [second]), ih after later]
          simp

/-- A first letter in upper case is not cut off from what follows it. -/
theorem caseCuts_of_isUpper {first second : Char} (upper : isUpper first = true)
    (notLower : isLower first = false) (rest : List Char) :
    caseCuts .boundary [] (first :: second :: rest) = caseCuts .upper [first] (second :: rest) := by
  have after : CaseMode.boundary.after first = .upper := by
    rw [CaseMode.after, notLower, if_neg Bool.false_ne_true, if_pos upper]
  rw [caseCuts, after, if_neg (by simp), if_neg (by simp)]

/-- Without upper case letters, lower case lasts. -/
theorem foldl_after_lower {text : List Char} (lower : ∀ c ∈ text, isUpper c = false) :
    text.foldl CaseMode.after .lower = .lower := by
  induction text with
  | nil => rfl
  | cons c rest ih =>
      obtain ⟨first, later⟩ := List.forall_mem_cons.mp lower
      have after : CaseMode.lower.after c = .lower := by
        rw [CaseMode.after, first]
        split <;> rfl
      rw [List.foldl_cons, after, ih later]

/-- A run without upper case letters that leaves the scan in lower case ends where an upper case
letter follows. -/
theorem caseCuts_append_of_isUpper {mode : CaseMode} {piece word rest : List Char} {next : Char}
    (nonempty : word ≠ []) (lower : ∀ c ∈ word, isUpper c = false)
    (ends : word.foldl CaseMode.after mode = .lower) (upper : isUpper next = true) :
    caseCuts mode piece (word ++ next :: rest) =
      (piece.reverse ++ word) :: caseCuts .boundary [] (next :: rest) := by
  induction word generalizing mode piece with
  | nil => exact absurd rfl nonempty
  | cons c word ih =>
      obtain ⟨first, later⟩ := List.forall_mem_cons.mp lower
      cases word with
      | nil =>
          rw [List.singleton_append, caseCuts, if_pos ⟨ends, upper⟩, List.reverse_cons]
      | cons second word =>
          have lowerSecond := later second List.mem_cons_self
          rw [List.cons_append, List.cons_append, caseCuts, if_neg (by simp [lowerSecond]),
            if_neg (by simp [first]), ← List.cons_append, ih (List.cons_ne_nil _ _) later ends]
          simp

theorem wordRuns_append_cons {c : Char} (separator : isWordChar c = false)
    (before after : List Char) :
    wordRuns (before ++ c :: after) = wordRuns before ++ wordRuns after := by
  induction before with
  | nil =>
      rw [List.nil_append, wordRuns]
      cases runs : wordRuns after with
      | nil => exact absurd runs (wordRuns_ne_nil after)
      | cons run others => simp [separator, wordRuns, runs]
  | cons d before ih =>
      rw [List.cons_append, wordRuns, ih, wordRuns]
      cases runs : wordRuns before with
      | nil => exact absurd runs (wordRuns_ne_nil before)
      | cons run runs => by_cases letter : isWordChar d = true <;> simp [letter]

theorem caseWords_append_cons {c : Char} (separator : isWordChar c = false)
    (before after : List Char) :
    caseWords (before ++ c :: after) = caseWords before ++ caseWords after := by
  rw [caseWords, wordRuns_append_cons separator, List.flatMap_append, List.filter_append]
  rfl

/-- Separators hold no words. -/
theorem caseWords_separators_append {gap : List Char} (separators : ∀ c ∈ gap, isWordChar c = false)
    (text : List Char) : caseWords (gap ++ text) = caseWords text := by
  induction gap with
  | nil => rfl
  | cons c gap ih =>
      obtain ⟨first, later⟩ := List.forall_mem_cons.mp separators
      rw [List.cons_append, ← List.nil_append (c :: (gap ++ text)), caseWords_append_cons first,
        ih later]
      rfl

theorem caseWords_append_of_separators {gap : List Char}
    (separators : ∀ c ∈ gap, isWordChar c = false) (text : List Char) :
    caseWords (text ++ gap) = caseWords text := by
  cases gap with
  | nil => rw [List.append_nil]
  | cons c gap =>
      obtain ⟨first, later⟩ := List.forall_mem_cons.mp separators
      rw [caseWords_append_cons first, ← List.append_nil gap, caseWords_separators_append later]
      exact List.append_nil _

/-- Separators between two texts keep their words apart. -/
theorem caseWords_append_separators {gap : List Char} (nonempty : gap ≠ [])
    (separators : ∀ c ∈ gap, isWordChar c = false) (before after : List Char) :
    caseWords (before ++ gap ++ after) = caseWords before ++ caseWords after := by
  cases gap with
  | nil => exact absurd rfl nonempty
  | cons c gap =>
      obtain ⟨first, later⟩ := List.forall_mem_cons.mp separators
      rw [List.append_assoc, List.cons_append, caseWords_append_cons first,
        caseWords_separators_append later]

/-- Letters and digits in front of a text lengthen its first run. -/
theorem wordRuns_append_of_isWordChar {word text run : List Char} {runs : List (List Char)}
    (letters : ∀ c ∈ word, isWordChar c = true) (behind : wordRuns text = run :: runs) :
    wordRuns (word ++ text) = (word ++ run) :: runs := by
  induction word with
  | nil => exact behind
  | cons c word ih =>
      obtain ⟨first, later⟩ := List.forall_mem_cons.mp letters
      rw [List.cons_append, wordRuns, ih later]
      simp [first]

/-- A word of letters and digits that is not cut is the only word of its text. -/
theorem caseWords_eq_singleton {word : List Char} (nonempty : word ≠ [])
    (letters : ∀ c ∈ word, isWordChar c = true) (uncut : caseCuts .boundary [] word = [word]) :
    caseWords word = [word] := by
  have runs : wordRuns word = [word] := by
    have single := wordRuns_append_of_isWordChar letters (show wordRuns [] = [[]] from rfl)
    rwa [List.append_nil] at single
  rw [caseWords, runs, List.flatMap_singleton, uncut]
  simpa using nonempty

/-- A word that is cut off before an upper case letter is the first word of its text. -/
theorem caseWords_append_of_isUpper {word rest : List Char} {next : Char} (nonempty : word ≠ [])
    (letters : ∀ c ∈ word, isWordChar c = true) (nextLetter : isWordChar next = true)
    (cut : ∀ rest, caseCuts .boundary [] (word ++ next :: rest) =
      word :: caseCuts .boundary [] (next :: rest)) :
    caseWords (word ++ next :: rest) = word :: caseWords (next :: rest) := by
  cases runs : wordRuns rest with
  | nil => exact absurd runs (wordRuns_ne_nil rest)
  | cons run others =>
      have behind : wordRuns (next :: rest) = (next :: run) :: others := by
        rw [wordRuns, runs]
        simp [nextLetter]
      rw [caseWords, wordRuns_append_of_isWordChar letters behind, List.flatMap_cons, cut,
        caseWords, behind, List.flatMap_cons, List.cons_append, List.filter_cons_of_pos]
      simpa using nonempty

/-- A word without capital sigmas is put in lower case character by character. -/
theorem lowerWord_eq_flatMap {word : List Char} (noSigma : ∀ c ∈ word, c ≠ 'Σ') :
    lowerWord word = word.flatMap lowerForm := by
  induction word with
  | nil => rfl
  | cons c rest ih =>
      have later := ih fun d inRest => noSigma d (List.mem_cons_of_mem _ inRest)
      cases rest with
      | nil => rw [lowerWord, if_neg (noSigma c List.mem_cons_self), List.flatMap_singleton]
      | cons next rest =>
          rw [List.flatMap_cons, lowerWord, later]
          exact List.cons_ne_nil next rest

end Text

end ModuleRoutes
