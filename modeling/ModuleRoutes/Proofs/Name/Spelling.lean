import ModuleRoutes.Proofs.Name.Token
import ModuleRoutes.Proofs.Text.Trimmed

/-!
# Spellings of names

The spelling of a name is its text without the blanks around it and the slashes behind it. A text is
a name exactly if its spelling is made of ASCII letters and digits, hyphens, underscores and blanks,
with at least one letter or digit. Its token has all letters and digits of the spelling in order, in
lower case, and nothing else but single hyphens between them
(`ModuleRoutes.Name.normalize_spelling`).
-/

namespace ModuleRoutes

namespace Name

/-- Whether a character may stand in the spelling of a name. -/
def MaySpell (c : Char) : Prop :=
  c.isAlphanum = true ∨ c = '-' ∨ c = '_' ∨ Text.isBlank c = true

/-- A text with blanks around it and slashes behind it, which are not its own: it does not end in a
slash, and with its slashes it neither begins nor ends with a blank. -/
structure IsSpellingIn (spelling raw : List Char) : Prop where
  surrounded : ∃ before slashes after, raw = before ++ (spelling ++ slashes) ++ after ∧
    (∀ c ∈ before, Text.isBlank c = true) ∧ (∀ c ∈ slashes, c = '/') ∧
    (∀ c ∈ after, Text.isBlank c = true) ∧
    (∀ c, (spelling ++ slashes).head? = some c → Text.isBlank c = false) ∧
    ∀ c, (spelling ++ slashes).getLast? = some c → Text.isBlank c = false
  unslashed : spelling.getLast? ≠ some '/'

/-- Stripping a text leaves the spelling in it. -/
theorem isSpellingIn_strip (raw : List Char) : IsSpellingIn (strip raw) raw where
  surrounded := by
    obtain ⟨before, after, shape, blankBefore, blankAfter⟩ := Text.exists_of_trim raw
    obtain ⟨slashes, trimmed, onlySlashes⟩ :=
      Text.exists_of_dropEndWhile (· = '/') (Text.trim raw)
    have whole : strip raw ++ slashes = Text.trim raw := trimmed.symm
    refine ⟨before, slashes, after, ?_, blankBefore, ?_, blankAfter, ?_, ?_⟩
    · rw [whole]
      exact shape
    · exact fun c member => of_decide_eq_true (onlySlashes c member)
    · intro c first
      rw [whole] at first
      exact Text.not_isBlank_of_head?_trim first
    · intro c last
      rw [whole] at last
      exact Text.not_isBlank_of_getLast?_trim last
  unslashed := fun last => absurd (Text.not_of_getLast?_dropEndWhile last) (by decide)

/-! ## Letters and digits -/

theorem isNameChar_iff {c : Char} : isNameChar c = true ↔ MaySpell c := by
  simp only [isNameChar, MaySpell, Bool.or_eq_true, Bool.and_eq_true, decide_eq_true_eq, or_assoc]
  exact or_congr_left (and_iff_right_of_imp isAscii_of_isAlphanum)

/-- In the spelling of a name, words are made of the ASCII letters and digits. -/
theorem isWordChar_eq_isAlphanum {c : Char} (allowed : MaySpell c) :
    Text.isWordChar c = c.isAlphanum := by
  rw [Bool.eq_iff_iff]
  constructor
  · intro letter
    exact (isAlphanum_of_isNameChar (isNameChar_iff.mpr allowed) letter).2
  · intro letter
    rw [Text.isWordChar, if_pos (isAscii_of_isAlphanum letter), letter]

/-- Without its hyphens, a text in kebab case is its letters and digits in lower case. -/
theorem filter_kebab {spelling : List Char} (allowed : ∀ c ∈ spelling, MaySpell c) :
    (Text.kebab spelling).filter (· ≠ '-') =
      (spelling.filter Char.isAlphanum).map Char.toLower := by
  have letters : ∀ word ∈ Text.caseWords spelling, ∀ c ∈ word, c.isAlphanum = true := by
    intro word inWords c inWord
    obtain ⟨inText, letter⟩ := (Text.mem_caseWords inWords).2 c inWord
    rwa [isWordChar_eq_isAlphanum (allowed c inText)] at letter
  have lower : ∀ word ∈ Text.caseWords spelling, Text.lowerWord word = word.map Char.toLower :=
    fun word inWords => lowerWord_eq_map (letters word inWords)
  have noHyphen : ∀ word ∈ (Text.caseWords spelling).map Text.lowerWord, '-' ∉ word := by
    intro lowered member hyphen
    obtain ⟨word, inWords, rfl⟩ := List.mem_map.mp member
    have isWord := isWord_lowerWord (Text.mem_caseWords inWords).1 (letters word inWords)
    exact absurd (isWord.2 _ hyphen) (by decide)
  rw [Text.kebab, Text.filter_joinWith noHyphen, List.map_congr_left lower, ← List.map_flatten,
    Text.flatten_caseWords]
  exact congrArg (List.map Char.toLower)
    (List.filter_congr fun c inText => isWordChar_eq_isAlphanum (allowed c inText))

theorem kebab_ne_nil_iff {spelling : List Char} (allowed : ∀ c ∈ spelling, MaySpell c) :
    Text.kebab spelling ≠ [] ↔ ∃ c ∈ spelling, c.isAlphanum = true := by
  constructor
  · intro filled
    have someWord : Text.caseWords spelling ≠ [] :=
      fun none => filled (by rw [Text.kebab, none]; rfl)
    obtain ⟨word, inWords⟩ := List.exists_mem_of_ne_nil _ someWord
    obtain ⟨nonempty, letters⟩ := Text.mem_caseWords inWords
    obtain ⟨c, inWord⟩ := List.exists_mem_of_ne_nil _ nonempty
    obtain ⟨inText, letter⟩ := letters c inWord
    exact ⟨c, inText, isWordChar_eq_isAlphanum (allowed c inText) ▸ letter⟩
  · rintro ⟨c, inText, letter⟩ empty
    have kept := filter_kebab allowed
    rw [empty, List.filter_nil, eq_comm, List.map_eq_nil_iff, List.filter_eq_nil_iff] at kept
    exact kept c inText letter

/-- **Spelling of names.** Let the blanks around a text and then the slashes behind it be taken
away. The text is a name exactly if what is left has only ASCII letters and digits, hyphens,
underscores and blanks, and some letter or digit among them. Its token is then made of words of
lower case letters and digits, joined by single hyphens; without the hyphens it is the letters and
digits in lower case, all of them and in order; and it is its own token. -/
theorem normalize_spelling (raw : String) :
    IsSpellingIn (strip raw.toList) raw.toList ∧
      ((∃ token, normalize raw = .ok token) ↔
        (∀ c ∈ strip raw.toList, MaySpell c) ∧ ∃ c ∈ strip raw.toList, c.isAlphanum = true) ∧
      ∀ token, normalize raw = .ok token → IsToken token ∧
        token.toList.filter (· ≠ '-') =
          ((strip raw.toList).filter Char.isAlphanum).map Char.toLower ∧
        normalize token = .ok token := by
  have names : ∀ token, normalize raw = .ok token ↔ (∀ c ∈ strip raw.toList, MaySpell c) ∧
      Text.kebab (strip raw.toList) ≠ [] ∧
        token = String.ofList (Text.kebab (strip raw.toList)) := by
    intro token
    simp only [normalize_eq_ok_iff, isNameChar_iff]
  refine ⟨isSpellingIn_strip _, ?_, ?_⟩
  · constructor
    · rintro ⟨token, normal⟩
      obtain ⟨allowed, filled, -⟩ := (names token).mp normal
      exact ⟨allowed, (kebab_ne_nil_iff allowed).mp filled⟩
    · rintro ⟨allowed, letter⟩
      exact ⟨_, (names _).mpr ⟨allowed, (kebab_ne_nil_iff allowed).mpr letter, rfl⟩⟩
  · intro token normal
    have isToken := isToken_of_normalize normal
    obtain ⟨allowed, -, rfl⟩ := (names token).mp normal
    refine ⟨isToken, ?_, normalize_eq_self_iff.mpr isToken⟩
    rw [String.toList_ofList, filter_kebab allowed]

/-- Runs of capitals, digits within a word and repeated separators are all read, and nothing of them
is lost. -/
theorem normalize_spelling_abTests :
    normalize "  ABTestsV2 __phase117Restock// " = .ok "ab-tests-v2-phase117-restock" ∧
      IsToken "ab-tests-v2-phase117-restock" ∧
      "ab-tests-v2-phase117-restock".toList.filter (· ≠ '-') =
        ((strip "  ABTestsV2 __phase117Restock// ".toList).filter Char.isAlphanum).map
          Char.toLower ∧
      normalize "ab-tests-v2-phase117-restock" = .ok "ab-tests-v2-phase117-restock" := by
  have normal :
      normalize "  ABTestsV2 __phase117Restock// " = .ok "ab-tests-v2-phase117-restock" := by
    decide +kernel
  exact ⟨normal, (normalize_spelling _).2.2 _ normal⟩

end Name

end ModuleRoutes
