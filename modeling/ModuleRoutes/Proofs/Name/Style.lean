import ModuleRoutes.Proofs.Name.Token
import ModuleRoutes.Proofs.Text.Trimmed

/-!
# Styles of spelling

Words can be spelled with separators between them, in lower case, with capitals or in capitals
throughout, or put together so that each next word begins with a capital. Whatever the style, and
whatever blanks and slashes stand around it, a name is read as the same words: its token is the
words joined by single hyphens (`ModuleRoutes.Name.normalize_styles`).
-/

namespace ModuleRoutes

namespace Name

/-- A word whose case can be told: it begins with two letters, and letters or digits follow. -/
def IsCaseable (word : List Char) : Prop :=
  2 ≤ word.length ∧ (∀ c ∈ word.take 2, c.isLower = true) ∧ ∀ c ∈ word, isTokenChar c = true

instance (word : List Char) : Decidable (IsCaseable word) :=
  decidable_of_iff (2 ≤ word.length ∧ (word.take 2).all Char.isLower = true ∧
    word.all isTokenChar = true) (by rw [IsCaseable, List.all_eq_true, List.all_eq_true])

/-- The case that a word is written in. -/
inductive Casing where
  | lower
  | capital
  | upper
deriving DecidableEq

/-- A word of lower case letters and digits in a given case. -/
def Casing.write : Casing → List Char → List Char
  | .lower, word => word
  | .capital, [] => []
  | .capital, c :: rest => c.toUpper :: rest
  | .upper, word => word.map Char.toUpper

/-- The ways to spell a list of words. -/
inductive Style where
  | kebab
  | snake
  | spaced
  | title
  | upper
  | camel
  | pascal
deriving DecidableEq

namespace Style

/-- The case of the leading word, or of a later one. -/
def casing : Style → Bool → Casing
  | .kebab, _ | .snake, _ | .spaced, _ | .camel, true => .lower
  | .title, _ | .pascal, _ | .camel, false => .capital
  | .upper, _ => .upper

/-- Whether the words are put together without separators. -/
def isCompound : Style → Bool
  | .camel | .pascal => true
  | .kebab | .snake | .spaced | .title | .upper => false

/-- Whether a character separates words. -/
def Separates : Style → Char → Prop
  | .kebab, c => c = '-'
  | .spaced, c => Text.isBlank c = true
  | .snake, c | .title, c | .upper, c => c = '_'
  | .camel, _ | .pascal, _ => False

/-- What stands between words that are spelled plainly. -/
def separator : Style → List Char
  | .kebab => ['-']
  | .spaced => [' ']
  | .snake | .title | .upper => ['_']
  | .camel | .pascal => []

/-- Words in a style, the first of which leads or not, with one separator between neighbours. -/
def write (style : Style) : Bool → List (List Char) → List Char
  | _, [] => []
  | leads, [word] => (style.casing leads).write word
  | leads, word :: next :: words =>
    (style.casing leads).write word ++ style.separator ++ style.write false (next :: words)

/-- The plain spelling of words in a style. -/
def spelling (style : Style) (words : List String) : String :=
  String.ofList (style.write true (words.map String.toList))

/-- What stands between two words: one separator or more, or nothing in a compound. -/
structure IsGap (style : Style) (gap : List Char) : Prop where
  separates : ∀ c ∈ gap, style.Separates c
  empty_iff : gap = [] ↔ style.isCompound = true

/-- A text is words in a style, the first of which leads or not, with any gaps between them. -/
inductive Writes (style : Style) : Bool → List (List Char) → List Char → Prop where
  | last {leads word} : Writes style leads [word] ((style.casing leads).write word)
  | next {leads word words gap text} : style.IsGap gap → Writes style false words text →
      Writes style leads (word :: words) ((style.casing leads).write word ++ gap ++ text)

/-- A text spells words in a style, with blanks around it and slashes behind it. -/
def Spells (style : Style) (words : List String) (raw : String) : Prop :=
  ∃ before text between slashes after,
    raw.toList = before ++ (text ++ between ++ slashes) ++ after ∧
      style.Writes true (words.map String.toList) text ∧
      (∀ c ∈ before, Text.isBlank c = true) ∧ (∀ c ∈ between, Text.isBlank c = true) ∧
      (∀ c ∈ slashes, c = '/') ∧ ∀ c ∈ after, Text.isBlank c = true

end Style

/-! ## Letters in another case -/

theorem isWordChar_of_isAlphanum {c : Char} (member : c.isAlphanum = true) :
    Text.isWordChar c = true := by
  rw [Text.isWordChar, if_pos (isAscii_of_isAlphanum member), member]

theorem toUpper_of_isTokenChar {c : Char} (member : isTokenChar c = true) :
    c.toUpper.isAlphanum = true ∧ c.toUpper.toLower = c ∧ Text.isLower c.toUpper = false :=
  of_all_ascii (P := fun c => isTokenChar c = true → c.toUpper.isAlphanum = true ∧
    c.toUpper.toLower = c ∧ Text.isLower c.toUpper = false) (by decide +kernel)
      (isAscii_of_isTokenChar member) member

theorem case_of_isLower {c : Char} (letter : c.isLower = true) :
    Text.isLower c = true ∧ Text.isUpper c.toUpper = true := by
  have member : isTokenChar c = true := by rw [isTokenChar, letter, Bool.true_or]
  exact of_all_ascii (P := fun c => c.isLower = true → Text.isLower c = true ∧
    Text.isUpper c.toUpper = true) (by decide +kernel) (isAscii_of_isTokenChar member) letter

theorem toLower_of_isTokenChar {c : Char} (member : isTokenChar c = true) :
    c.isAlphanum = true ∧ c.toLower = c :=
  of_all_ascii (P := fun c => isTokenChar c = true → c.isAlphanum = true ∧ c.toLower = c)
    (by decide +kernel) (isAscii_of_isTokenChar member) member

/-! ## One word -/

namespace IsCaseable

variable {word : List Char}

theorem exists_eq_cons_cons (caseable : IsCaseable word) : ∃ first second rest,
    word = first :: second :: rest ∧ first.isLower = true ∧ second.isLower = true := by
  obtain ⟨two, letters, -⟩ := caseable
  match word, two, letters with
  | first :: second :: rest, _, letters =>
    exact ⟨first, second, rest, rfl, letters first (by simp), letters second (by simp)⟩

theorem not_isUpper (caseable : IsCaseable word) : ∀ c ∈ word, Text.isUpper c = false :=
  fun c member => (isPlain_of_isTokenChar (caseable.2.2 c member)).notUpper

theorem write_ne_nil (caseable : IsCaseable word) (casing : Casing) : casing.write word ≠ [] := by
  obtain ⟨first, second, rest, rfl, -⟩ := caseable.exists_eq_cons_cons
  cases casing <;> exact List.cons_ne_nil _ _

/-- A word in any case is made of the same letters and digits. -/
theorem map_toLower_write (caseable : IsCaseable word) (casing : Casing) :
    (∀ c ∈ casing.write word, c.isAlphanum = true) ∧
      (casing.write word).map Char.toLower = word := by
  have lower := fun c member => toLower_of_isTokenChar (caseable.2.2 c member)
  have upper := fun c member => toUpper_of_isTokenChar (caseable.2.2 c member)
  have unchanged : word.map Char.toLower = word :=
    (List.map_congr_left fun c member => (lower c member).2).trans (List.map_id word)
  cases casing with
  | lower => exact ⟨fun c member => (lower c member).1, unchanged⟩
  | upper =>
      refine ⟨List.forall_mem_map.mpr fun c member => (upper c member).1, ?_⟩
      rw [Casing.write, List.map_map]
      exact (List.map_congr_left fun c member => (upper c member).2.1).trans (List.map_id word)
  | capital =>
      obtain ⟨first, second, rest, rfl, -⟩ := caseable.exists_eq_cons_cons
      obtain ⟨letter, same, -⟩ := upper first List.mem_cons_self
      refine ⟨List.forall_mem_cons.mpr ⟨letter, fun c member => ?_⟩, ?_⟩
      · exact (lower c (List.mem_cons_of_mem _ member)).1
      · rw [Casing.write, List.map_cons, same, (List.cons.inj unchanged).2]

theorem isWordChar_write (caseable : IsCaseable word) (casing : Casing) :
    ∀ c ∈ casing.write word, Text.isWordChar c = true :=
  fun c member => isWordChar_of_isAlphanum ((caseable.map_toLower_write casing).1 c member)

theorem lowerWord_write (caseable : IsCaseable word) (casing : Casing) :
    Text.lowerWord (casing.write word) = word := by
  obtain ⟨letters, lowered⟩ := caseable.map_toLower_write casing
  rw [lowerWord_eq_map letters, lowered]

/-- No word is cut, in whatever case it is written. -/
theorem caseCuts_write (caseable : IsCaseable word) (casing : Casing) :
    Text.caseCuts .boundary [] (casing.write word) = [casing.write word] := by
  cases casing with
  | lower => exact Text.caseCuts_of_not_isUpper caseable.not_isUpper
  | upper =>
      refine Text.caseCuts_of_not_isLower (by simp) (List.forall_mem_map.mpr fun c member => ?_)
      exact (toUpper_of_isTokenChar (caseable.2.2 c member)).2.2
  | capital =>
      have lower := caseable.not_isUpper
      have letters := caseable.2.2
      obtain ⟨first, second, rest, rfl, firstLetter, -⟩ := caseable.exists_eq_cons_cons
      rw [Casing.write, Text.caseCuts_of_isUpper (case_of_isLower firstLetter).2
        (toUpper_of_isTokenChar (letters first List.mem_cons_self)).2.2,
        Text.caseCuts_of_not_isUpper fun c member => lower c (List.mem_cons_of_mem _ member)]
      rfl

/-- A word that is not in capitals throughout ends in lower case, so it is cut off before a capital.
-/
theorem caseCuts_write_append (caseable : IsCaseable word) {casing : Casing}
    (mixed : casing ≠ .upper) {next : Char} (upper : Text.isUpper next = true) (rest : List Char) :
    Text.caseCuts .boundary [] (casing.write word ++ next :: rest) =
      casing.write word :: Text.caseCuts .boundary [] (next :: rest) := by
  have lower := caseable.not_isUpper
  have letters := caseable.2.2
  obtain ⟨first, second, others, rfl, firstLetter, secondLetter⟩ := caseable.exists_eq_cons_cons
  have lowerLater := (List.forall_mem_cons.mp lower).2
  have afterSecond : ∀ mode, (second :: others).foldl Text.CaseMode.after mode = .lower := by
    intro mode
    have begins : mode.after second = .lower := by
      rw [Text.CaseMode.after, if_pos (case_of_isLower secondLetter).1]
    rw [List.foldl_cons, begins,
      Text.foldl_after_lower (List.forall_mem_cons.mp lowerLater).2]
  cases casing with
  | upper => exact absurd rfl mixed
  | lower =>
      exact Text.caseCuts_append_of_isUpper (List.cons_ne_nil _ _) lower (afterSecond _) upper
  | capital =>
      rw [Casing.write, List.cons_append, List.cons_append,
        Text.caseCuts_of_isUpper (case_of_isLower firstLetter).2
          (toUpper_of_isTokenChar (letters first List.mem_cons_self)).2.2, ← List.cons_append,
        Text.caseCuts_append_of_isUpper (List.cons_ne_nil _ _) lowerLater (afterSecond _) upper]
      rfl

end IsCaseable

/-! ## Words in a style -/

theorem not_isBlank_of_isAlphanum {c : Char} (member : c.isAlphanum = true) :
    Text.isBlank c = false := by
  by_contra blank
  have apart := not_isWordChar_of_isBlank (Bool.not_eq_false _ ▸ blank)
  rw [isWordChar_of_isAlphanum member] at apart
  cases apart

namespace Style

variable {style : Style} {leads : Bool} {words : List (List Char)} {text : List Char}

theorem Separates.not_isWordChar {c : Char} (separates : style.Separates c) :
    Text.isWordChar c = false := by
  cases style with
  | kebab | snake | title | upper =>
      cases separates
      decide
  | spaced => exact not_isWordChar_of_isBlank separates
  | camel | pascal => exact separates.elim

theorem Separates.isNameChar {c : Char} (separates : style.Separates c) :
    Name.isNameChar c = true := by
  cases style with
  | kebab | snake | title | upper =>
      cases separates
      decide
  | spaced => exact (Bool.or_eq_true _ _).mpr (.inr separates)
  | camel | pascal => exact separates.elim

theorem isGap_separator (style : Style) : style.IsGap style.separator := by
  cases style <;> exact ⟨by simp [separator, Separates, Text.isBlank],
    by simp [separator, isCompound]⟩

theorem writes_write (nonempty : words ≠ []) :
    style.Writes leads words (style.write leads words) := by
  induction words generalizing leads with
  | nil => exact absurd rfl nonempty
  | cons word words ih =>
      cases words with
      | nil => exact .last
      | cons next words => exact .next style.isGap_separator (ih (List.cons_ne_nil next words))

/-- The plain spelling spells its words. -/
theorem spells_spelling {words : List String} (nonempty : words ≠ []) :
    style.Spells words (style.spelling words) := by
  refine ⟨[], style.write true (words.map String.toList), [], [], [], ?_, ?_, nofun, nofun, nofun,
    nofun⟩
  · simp [spelling]
  · exact writes_write (by simpa using nonempty)

theorem casing_false_of_isCompound (compound : style.isCompound = true) :
    style.casing false = .capital := by
  cases style with
  | kebab | snake | spaced | title | upper => cases compound
  | camel | pascal => rfl

theorem casing_ne_upper_of_isCompound (compound : style.isCompound = true) (leads : Bool) :
    style.casing leads ≠ .upper := by
  cases style with
  | kebab | snake | spaced | title | upper => cases compound
  | camel => cases leads <;> exact nofun
  | pascal => exact nofun

namespace Writes

/-- A text begins as its first word does. -/
theorem exists_eq_append (writes : style.Writes leads words text) :
    ∃ word ∈ words, ∃ rest, text = (style.casing leads).write word ++ rest := by
  cases writes with
  | last => exact ⟨_, List.mem_cons_self, [], (List.append_nil _).symm⟩
  | next => exact ⟨_, List.mem_cons_self, _, List.append_assoc _ _ _⟩

/-- In a compound, each later word begins with a capital. -/
theorem exists_capital (writes : style.Writes false words text)
    (compound : style.isCompound = true) (caseable : ∀ word ∈ words, IsCaseable word) :
    ∃ next rest, text = next :: rest ∧ Text.isUpper next = true ∧
      Text.isWordChar next = true := by
  obtain ⟨word, member, rest, rfl⟩ := writes.exists_eq_append
  have isWordChar := (caseable word member).isWordChar_write .capital
  obtain ⟨first, second, others, rfl, letter, -⟩ := (caseable word member).exists_eq_cons_cons
  rw [casing_false_of_isCompound compound]
  exact ⟨first.toUpper, _, rfl, (case_of_isLower letter).2, isWordChar _ List.mem_cons_self⟩

/-- Read again, a text in any style is the words that it was written from. -/
theorem map_lowerWord_caseWords (writes : style.Writes leads words text)
    (caseable : ∀ word ∈ words, IsCaseable word) :
    (Text.caseWords text).map Text.lowerWord = words := by
  induction writes with
  | @last leads word =>
      have only := caseable word List.mem_cons_self
      rw [Text.caseWords_eq_singleton (only.write_ne_nil _) (only.isWordChar_write _)
        (only.caseCuts_write _), List.map_singleton, only.lowerWord_write]
  | @next leads word words gap text isGap writes ih =>
      obtain ⟨first, later⟩ := List.forall_mem_cons.mp caseable
      have cut : Text.caseWords ((style.casing leads).write word ++ gap ++ text) =
          (style.casing leads).write word :: Text.caseWords text := by
        by_cases compound : style.isCompound = true
        · obtain ⟨next, rest, rfl, upper, letter⟩ := writes.exists_capital compound later
          rw [isGap.empty_iff.mpr compound, List.append_nil]
          apply Text.caseWords_append_of_isUpper (first.write_ne_nil _) (first.isWordChar_write _)
            letter
          exact first.caseCuts_write_append (casing_ne_upper_of_isCompound compound leads) upper
        · have separated : gap ≠ [] := fun empty => compound (isGap.empty_iff.mp empty)
          rw [Text.caseWords_append_separators separated fun c member =>
              (isGap.separates c member).not_isWordChar,
            Text.caseWords_eq_singleton (first.write_ne_nil _) (first.isWordChar_write _)
              (first.caseCuts_write _), List.singleton_append]
      rw [cut, List.map_cons, first.lowerWord_write, ih later]

theorem isNameChar (writes : style.Writes leads words text)
    (caseable : ∀ word ∈ words, IsCaseable word) : ∀ c ∈ text, Name.isNameChar c = true := by
  have letters : ∀ word, IsCaseable word → ∀ casing : Casing, ∀ c ∈ casing.write word,
      Name.isNameChar c = true := by
    intro word plain casing c member
    have letter := (plain.map_toLower_write casing).1 c member
    simp [Name.isNameChar, letter, isAscii_of_isAlphanum letter]
  induction writes with
  | last => exact letters _ (caseable _ List.mem_cons_self) _
  | next isGap writes ih =>
      obtain ⟨first, later⟩ := List.forall_mem_cons.mp caseable
      intro c member
      rcases List.mem_append.mp member with inFront | inText
      · rcases List.mem_append.mp inFront with inWord | inGap
        · exact letters _ first _ c inWord
        · exact (isGap.separates c inGap).isNameChar
      · exact ih later c inText

theorem ne_nil (writes : style.Writes leads words text)
    (caseable : ∀ word ∈ words, IsCaseable word) : text ≠ [] := by
  obtain ⟨word, member, rest, rfl⟩ := writes.exists_eq_append
  exact List.append_ne_nil_of_left_ne_nil ((caseable word member).write_ne_nil _) rest

theorem isAlphanum_of_head? (writes : style.Writes leads words text)
    (caseable : ∀ word ∈ words, IsCaseable word) {c : Char} (head : text.head? = some c) :
    c.isAlphanum = true := by
  obtain ⟨word, member, rest, rfl⟩ := writes.exists_eq_append
  rw [List.head?_append_of_ne_nil _ ((caseable word member).write_ne_nil _)] at head
  exact ((caseable word member).map_toLower_write _).1 c (List.mem_of_head? head)

theorem isAlphanum_of_getLast? (writes : style.Writes leads words text)
    (caseable : ∀ word ∈ words, IsCaseable word) {c : Char} (last : text.getLast? = some c) :
    c.isAlphanum = true := by
  induction writes with
  | last =>
      have only := caseable _ List.mem_cons_self
      exact (only.map_toLower_write _).1 c (List.mem_of_getLast? last)
  | next isGap writes ih =>
      have later := (List.forall_mem_cons.mp caseable).2
      rw [List.getLast?_append_of_ne_nil _ (writes.ne_nil later)] at last
      exact ih later last

end Writes

end Style

/-! ## Blanks and slashes around a name -/

/-- Stripping leaves a text that does not end in a blank or a slash, with at most blanks behind. -/
theorem exists_strip_eq_append {before text between slashes after : List Char}
    (blankBefore : ∀ c ∈ before, Text.isBlank c = true)
    (blankBetween : ∀ c ∈ between, Text.isBlank c = true) (onlySlashes : ∀ c ∈ slashes, c = '/')
    (blankAfter : ∀ c ∈ after, Text.isBlank c = true) (nonempty : text ≠ [])
    (begins : ∀ c, text.head? = some c → Text.isBlank c = false)
    (ends : ∀ c, text.getLast? = some c → Text.isBlank c = false ∧ c ≠ '/') :
    ∃ rest, strip (before ++ (text ++ between ++ slashes) ++ after) = text ++ rest ∧
      ∀ c ∈ rest, Text.isBlank c = true := by
  by_cases unslashed : slashes = []
  · subst unslashed
    have blankBehind := List.forall_mem_append.mpr ⟨blankBetween, blankAfter⟩
    have trimmed := Text.trim_append blankBefore blankBehind nonempty begins
      fun c last => (ends c last).1
    refine ⟨[], ?_, nofun⟩
    rw [strip, List.append_nil, ← List.append_assoc, List.append_assoc _ between, trimmed,
      List.append_nil]
    exact Text.dropEndWhile_of_getLast? fun c last => decide_eq_false (ends c last).2
  · have trimmed : Text.trim (before ++ (text ++ between ++ slashes) ++ after) =
        text ++ between ++ slashes := by
      apply Text.trim_append blankBefore blankAfter
      · exact List.append_ne_nil_of_right_ne_nil _ unslashed
      · intro c head
        rw [List.append_assoc, List.head?_append_of_ne_nil _ nonempty] at head
        exact begins c head
      · intro c last
        rw [List.getLast?_append_of_ne_nil _ unslashed] at last
        rw [onlySlashes c (List.mem_of_getLast? last)]
        decide
    refine ⟨between, ?_, blankBetween⟩
    rw [strip, trimmed, Text.dropEndWhile_append fun c member =>
      decide_eq_true (onlySlashes c member)]
    refine Text.dropEndWhile_of_getLast? fun c last => decide_eq_false ?_
    rintro rfl
    rw [List.getLast?_append] at last
    rcases Option.or_eq_some_iff.mp last with inBetween | ⟨-, inText⟩
    · exact absurd (blankBetween _ (List.mem_of_getLast? inBetween)) (by decide)
    · exact (ends _ inText).2 rfl

/-- A text that spells words in some style has the words joined by hyphens for its token. -/
theorem normalize_of_spells {style : Style} {words : List String} {raw : String}
    (caseable : ∀ word ∈ words, IsCaseable word.toList) (spells : style.Spells words raw) :
    normalize raw = .ok (Text.joined "-" words) := by
  obtain ⟨before, text, between, slashes, after, whole, writes, blankBefore, blankBetween,
    onlySlashes, blankAfter⟩ := spells
  have eachCaseable : ∀ word ∈ words.map String.toList, IsCaseable word :=
    List.forall_mem_map.mpr caseable
  obtain ⟨rest, stripped, blankRest⟩ := exists_strip_eq_append blankBefore blankBetween onlySlashes
    blankAfter (writes.ne_nil eachCaseable)
    (fun c head => not_isBlank_of_isAlphanum (writes.isAlphanum_of_head? eachCaseable head))
    (fun c last => by
      have letter := writes.isAlphanum_of_getLast? eachCaseable last
      refine ⟨not_isBlank_of_isAlphanum letter, ?_⟩
      rintro rfl
      cases letter)
  have kebab : Text.kebab (text ++ rest) = Text.joinWith ['-'] (words.map String.toList) := by
    have words := Text.caseWords_append_of_separators
      (fun c member => not_isWordChar_of_isBlank (blankRest c member)) text
    rw [Text.kebab, words, writes.map_lowerWord_caseWords eachCaseable]
  have isToken : IsToken (Text.joined "-" words) := by
    refine isToken_joinWith ?_ fun word member => ?_
    · obtain ⟨word, member, -⟩ := writes.exists_eq_append
      exact List.ne_nil_of_mem member
    · exact ⟨(eachCaseable word member).write_ne_nil .lower, (eachCaseable word member).2.2⟩
  rw [normalize_eq_ok_iff, whole, stripped, kebab]
  refine ⟨List.forall_mem_append.mpr ⟨writes.isNameChar eachCaseable, fun c member => ?_⟩, ?_, rfl⟩
  · exact (Bool.or_eq_true _ _).mpr (.inr (blankRest c member))
  · have nonempty := isToken.toList_ne_nil
    rw [Text.toList_joined] at nonempty
    exact nonempty

/-- **Styles of spelling.** Words that each begin with two letters, behind which letters or digits
follow, have one token in whatever style they are spelled: the words joined by single hyphens.
Repeated separators, blanks around the name and slashes behind it make no difference. -/
theorem normalize_styles {words : List String} (nonempty : words ≠ [])
    (caseable : ∀ word ∈ words, IsCaseable word.toList) (style : Style) :
    normalize (style.spelling words) = .ok (Text.joined "-" words) ∧
      ∀ raw, style.Spells words raw → normalize raw = .ok (Text.joined "-" words) :=
  ⟨normalize_of_spells caseable (style.spells_spelling nonempty),
    fun _ spells => normalize_of_spells caseable spells⟩

/-- A name in camel case, in capitals with repeated separators, and in Pascal case with blanks and
slashes around it. -/
theorem normalize_styles_bulkAllocate :
    ["bulk", "allocate2x"] ≠ [] ∧ IsCaseable "bulk".toList ∧ IsCaseable "allocate2x".toList ∧
      Style.upper.Spells ["bulk", "allocate2x"] "BULK___ALLOCATE2X" ∧
      Style.pascal.Spells ["bulk", "allocate2x"] "  BulkAllocate2x // " ∧
      normalize "bulkAllocate2x" = .ok "bulk-allocate2x" ∧
      normalize "BULK___ALLOCATE2X" = .ok "bulk-allocate2x" ∧
      normalize "  BulkAllocate2x // " = .ok "bulk-allocate2x" := by
  have nonempty : ["bulk", "allocate2x"] ≠ [] := List.cons_ne_nil _ _
  have first : IsCaseable "bulk".toList := by decide
  have second : IsCaseable "allocate2x".toList := by decide
  have each : ∀ word ∈ ["bulk", "allocate2x"], IsCaseable word.toList :=
    List.forall_mem_cons.mpr ⟨first, List.forall_mem_singleton.mpr second⟩
  have underscores : Style.upper.IsGap ['_', '_', '_'] :=
    ⟨by simp [Style.Separates], by simp [Style.isCompound]⟩
  have upper : Style.upper.Spells ["bulk", "allocate2x"] "BULK___ALLOCATE2X" :=
    ⟨[], _, [], [], [], rfl, .next underscores .last, nofun, nofun, nofun, nofun⟩
  have pascal : Style.pascal.Spells ["bulk", "allocate2x"] "  BulkAllocate2x // " :=
    ⟨[' ', ' '], _, [' '], ['/', '/'], [' '], rfl, .next Style.pascal.isGap_separator .last,
      by simp [Text.isBlank], by simp [Text.isBlank], by simp, by simp [Text.isBlank]⟩
  exact ⟨nonempty, first, second, upper, pascal, (normalize_styles nonempty each .camel).1,
    (normalize_styles nonempty each .upper).2 _ upper,
    (normalize_styles nonempty each .pascal).2 _ pascal⟩

end Name

end ModuleRoutes
