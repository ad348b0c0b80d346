import ModuleRoutes.Name.Basic
import ModuleRoutes.Name.Plural
import ModuleRoutes.Proofs.Text.Kebab

/-!
# Tokens

A token is a text of lower case ASCII letters and digits in words joined by single hyphens. Every
normalized name is a token (`ModuleRoutes.Name.isToken_of_normalize`), and so is the plural of a
token (`ModuleRoutes.Name.isToken_plural`). Conversely normalization leaves every token as it is
(`ModuleRoutes.Name.normalize_eq_self_iff`), so tokens are the normal forms of names. A text is
refused for a foreign character or for having no letter and no digit, and for nothing else
(`ModuleRoutes.Name.fault_of_normalize`).
-/

namespace ModuleRoutes

namespace Name

/-- A word of a token: at least one character, all of them lower case letters and digits. -/
def IsWord (word : List Char) : Prop := word ≠ [] ∧ ∀ c ∈ word, isTokenChar c = true

instance (word : List Char) : Decidable (IsWord word) :=
  decidable_of_iff (word ≠ [] ∧ word.all isTokenChar = true) (by rw [IsWord, List.all_eq_true])

/-- A token: words joined by single hyphens. -/
def IsToken (text : String) : Prop := ∀ word ∈ Text.splitOn '-' text.toList, IsWord word

instance (text : String) : Decidable (IsToken text) := inferInstanceAs (Decidable (∀ _ ∈ _, _))

/-! ## Classes of characters -/

/-- What holds of the first code points holds of every ASCII character. -/
theorem of_all_ascii {P : Char → Prop} (all : ∀ code ∈ List.range 128, P (Char.ofNat code))
    {c : Char} (ascii : c.toNat < 128) : P c := by
  have member := all c.toNat (List.mem_range.mpr ascii)
  rwa [Char.ofNat_toNat] at member

/-- Core's letters and digits are those of ASCII. -/
theorem isAscii_of_isAlphanum {c : Char} (member : c.isAlphanum = true) : c.toNat < 128 := by
  have below : ∀ {last : Char}, last.toNat < 128 → c.val ≤ last.val → c.toNat < 128 :=
    fun ascii upTo => Nat.lt_of_le_of_lt (UInt32.le_iff_toNat_le.mp upTo) ascii
  rcases (Bool.or_eq_true _ _).mp member with letter | digit
  · rcases (Bool.or_eq_true _ _).mp letter with upper | lower
    · exact @below 'Z' (by decide) (of_decide_eq_true upper).2
    · exact @below 'z' (by decide) (of_decide_eq_true (Bool.and_eq_true_iff.mp lower).2)
  · exact @below '9' (by decide) (of_decide_eq_true (Bool.and_eq_true_iff.mp digit).2)

theorem isAscii_of_isTokenChar {c : Char} (member : isTokenChar c = true) : c.toNat < 128 := by
  apply isAscii_of_isAlphanum
  rcases (Bool.or_eq_true _ _).mp member with lower | digit
  · have letter : c.isAlpha = true := (Bool.or_eq_true _ _).mpr (.inr lower)
    exact (Bool.or_eq_true _ _).mpr (.inl letter)
  · exact (Bool.or_eq_true _ _).mpr (.inr digit)

/-- A character that has no case to change and may stand in the spelling of a name. -/
structure IsPlain (c : Char) : Prop where
  isWordChar : Text.isWordChar c = true
  notUpper : Text.isUpper c = false
  lowerForm : Text.lowerForm c = [c]
  noSigma : c ≠ 'Σ'
  notBlank : Text.isBlank c = false
  isNameChar : isNameChar c = true

/-- The characters of tokens are plain. -/
theorem isPlain_of_isTokenChar {c : Char} (member : isTokenChar c = true) : IsPlain c := by
  have each := of_all_ascii (P := fun c => isTokenChar c = true → Text.isWordChar c = true ∧
    Text.isUpper c = false ∧ Text.lowerForm c = [c] ∧ c ≠ 'Σ' ∧ Text.isBlank c = false ∧
    isNameChar c = true) (by decide +kernel) (isAscii_of_isTokenChar member)
  obtain ⟨isWordChar, notUpper, lowerForm, noSigma, notBlank, isNameChar⟩ := each member
  exact ⟨isWordChar, notUpper, lowerForm, noSigma, notBlank, isNameChar⟩

theorem lowerForm_of_isAlphanum {c : Char} (ascii : c.toNat < 128) (member : c.isAlphanum = true) :
    Text.lowerForm c = [c.toLower] ∧ isTokenChar c.toLower = true ∧ c ≠ 'Σ' := by
  revert member
  exact of_all_ascii (P := fun c => c.isAlphanum = true → Text.lowerForm c = [c.toLower] ∧
    isTokenChar c.toLower = true ∧ c ≠ 'Σ') (by decide +kernel) ascii

/-- The code points of blanks. -/
def blankCodes : List Nat :=
  [9, 10, 11, 12, 13, 32, 0x85, 0xA0, 0x1680, 0x2000, 0x2001, 0x2002, 0x2003, 0x2004, 0x2005,
    0x2006, 0x2007, 0x2008, 0x2009, 0x200A, 0x2028, 0x2029, 0x202F, 0x205F, 0x3000]

theorem not_isWordChar_of_isBlank {c : Char} (blank : Text.isBlank c = true) :
    Text.isWordChar c = false := by
  have listed : c.toNat ∈ blankCodes := by
    simp only [Text.isBlank, Bool.or_eq_true, Bool.and_eq_true, decide_eq_true_eq] at blank
    simp only [blankCodes, List.mem_cons, List.not_mem_nil, or_false]
    omega
  have apart : ∀ code ∈ blankCodes, Text.isWordChar (Char.ofNat code) = false := by decide +kernel
  simpa only [Char.ofNat_toNat] using apart c.toNat listed

/-- The letters and digits in the spelling of a name are those of ASCII. -/
theorem isAlphanum_of_isNameChar {c : Char} (allowed : isNameChar c = true)
    (letter : Text.isWordChar c = true) : c.toNat < 128 ∧ c.isAlphanum = true := by
  simp only [isNameChar, Bool.or_eq_true, Bool.and_eq_true, decide_eq_true_eq] at allowed
  rcases allowed with ((ascii | rfl) | rfl) | blank
  · exact ascii
  · exact absurd letter (by decide)
  · exact absurd letter (by decide)
  · rw [not_isWordChar_of_isBlank blank] at letter
    cases letter

/-! ## Normalized names -/

/-- A word of ASCII letters and digits is put in lower case character by character. -/
theorem lowerWord_eq_map {word : List Char} (letters : ∀ c ∈ word, c.isAlphanum = true) :
    Text.lowerWord word = word.map Char.toLower := by
  have forms := fun c inWord =>
    lowerForm_of_isAlphanum (isAscii_of_isAlphanum (letters c inWord)) (letters c inWord)
  rw [Text.lowerWord_eq_flatMap fun c inWord => (forms c inWord).2.2, List.map_eq_flatMap]
  exact List.flatMap_congr fun c inWord => (forms c inWord).1

theorem isWord_lowerWord {word : List Char} (nonempty : word ≠ [])
    (letters : ∀ c ∈ word, c.isAlphanum = true) : IsWord (Text.lowerWord word) := by
  rw [lowerWord_eq_map letters]
  refine ⟨by simpa using nonempty, fun c member => ?_⟩
  obtain ⟨d, inWord, rfl⟩ := List.mem_map.mp member
  have letter := letters d inWord
  exact (lowerForm_of_isAlphanum (isAscii_of_isAlphanum letter) letter).2.1

theorem isToken_joinWith {words : List (List Char)} (nonempty : words ≠ [])
    (each : ∀ word ∈ words, IsWord word) :
    IsToken (String.ofList (Text.joinWith ['-'] words)) := by
  have free : ∀ word ∈ words, '-' ∉ word := fun word member hyphen =>
    absurd ((each word member).2 _ hyphen) (by decide)
  unfold IsToken
  rw [String.toList_ofList, Text.splitOn_joinWith free nonempty]
  exact each

/-- The characters of a token are hyphens, lower case letters and digits. -/
theorem IsToken.mem_toList {token : String} (isToken : IsToken token) {c : Char}
    (member : c ∈ token.toList) : c = '-' ∨ isTokenChar c = true := by
  rw [← Text.joinWith_splitOn '-' token.toList] at member
  rcases Text.mem_joinWith member with hyphen | ⟨word, inPieces, inWord⟩
  · exact Or.inl (List.mem_singleton.mp hyphen)
  · exact Or.inr ((isToken word inPieces).2 c inWord)

/-- What is left of a spelling without foreign characters is a token. -/
theorem isToken_kebab {spelling : List Char} (allowed : ∀ c ∈ spelling, isNameChar c = true)
    (filled : Text.kebab spelling ≠ []) : IsToken (String.ofList (Text.kebab spelling)) := by
  refine isToken_joinWith ?_ ?_
  · intro noWords
    exact filled (by rw [Text.kebab, noWords, Text.joinWith])
  · intro word member
    obtain ⟨original, inWords, rfl⟩ := List.mem_map.mp member
    obtain ⟨nonempty, letters⟩ := Text.mem_caseWords inWords
    exact isWord_lowerWord nonempty fun c inWord =>
      (isAlphanum_of_isNameChar (allowed c (letters c inWord).1) (letters c inWord).2).2

/-- The last check of a name passes whenever the checks before it do. -/
theorem all_isTokenChar_kebab {spelling : List Char}
    (allowed : ∀ c ∈ spelling, isNameChar c = true) (filled : Text.kebab spelling ≠ []) :
    ((Text.kebab spelling).all fun c => isTokenChar c || c = '-') = true := by
  rw [List.all_eq_true]
  intro c member
  have kept := (isToken_kebab allowed filled).mem_toList (by rwa [String.toList_ofList])
  simpa [or_comm] using kept

/-- A text is a name when its spelling has no foreign character and some letter or digit. -/
theorem normalize_eq_ok_iff {raw token : String} :
    normalize raw = .ok token ↔
      (∀ c ∈ strip raw.toList, isNameChar c = true) ∧ Text.kebab (strip raw.toList) ≠ [] ∧
        token = String.ofList (Text.kebab (strip raw.toList)) := by
  simp only [normalize]
  generalize strip raw.toList = spelling
  cases foreign : spelling.find? fun c => !isNameChar c with
  | some c =>
      have member := List.mem_of_find?_eq_some foreign
      have refused := List.find?_some foreign
      refine ⟨nofun, fun ⟨allowed, _⟩ => ?_⟩
      simp [allowed c member] at refused
  | none =>
      have allowed : ∀ c ∈ spelling, isNameChar c = true := by
        simpa using List.find?_eq_none.mp foreign
      by_cases blank : Text.kebab spelling = []
      · simp [blank]
      · simp only [if_neg blank, if_pos (all_isTokenChar_kebab allowed blank), Except.ok.injEq]
        exact ⟨fun same => ⟨allowed, blank, same.symm⟩, fun ⟨_, _, same⟩ => same.symm⟩

/-- A normalized name is a token. -/
theorem isToken_of_normalize {raw token : String} (normal : normalize raw = .ok token) :
    IsToken token := by
  obtain ⟨allowed, filled, rfl⟩ := normalize_eq_ok_iff.mp normal
  exact isToken_kebab allowed filled

/-- A text is refused as it is written, for a foreign character in its spelling or because no letter
and no digit are left of it. -/
theorem fault_of_normalize {raw : String} {fault : InvalidName}
    (refused : normalize raw = .error fault) :
    fault.raw = raw ∧ ((∃ c ∈ strip raw.toList, isNameChar c = false ∧ fault.defect = .foreign c) ∨
      (Text.kebab (strip raw.toList) = [] ∧ fault.defect = .empty)) := by
  simp only [normalize] at refused
  cases foreign : (strip raw.toList).find? fun c => !isNameChar c with
  | some c =>
      rw [foreign] at refused
      cases refused
      exact ⟨rfl, Or.inl ⟨c, List.mem_of_find?_eq_some foreign,
        by simpa using List.find?_some foreign, rfl⟩⟩
  | none =>
      have allowed : ∀ c ∈ strip raw.toList, isNameChar c = true := by
        simpa using List.find?_eq_none.mp foreign
      rw [foreign] at refused
      by_cases blank : Text.kebab (strip raw.toList) = []
      · simp only [if_pos blank] at refused
        cases refused
        exact ⟨rfl, Or.inr ⟨blank, rfl⟩⟩
      · simp only [if_neg blank, if_pos (all_isTokenChar_kebab allowed blank)] at refused
        cases refused

namespace IsToken

variable {token : String}

theorem toList_ne_nil (isToken : IsToken token) : token.toList ≠ [] := by
  intro empty
  have word := isToken [] (by rw [empty]; exact List.mem_singleton.mpr rfl)
  exact word.1 rfl

theorem slash_not_mem (isToken : IsToken token) : '/' ∉ token.toList := by
  intro slash
  rcases isToken.mem_toList slash with same | letter
  · cases same
  · exact absurd letter (by decide)

/-- A token is its own kebab case. -/
theorem kebab_eq (isToken : IsToken token) : Text.kebab token.toList = token.toList := by
  have words : Text.caseWords token.toList = Text.splitOn '-' token.toList := by
    refine Text.caseWords_eq_splitOn (fun c member => ?_) fun word member => (isToken word member).1
    refine (isToken.mem_toList member).imp_right fun letter => ?_
    have plain := isPlain_of_isTokenChar letter
    exact ⟨plain.isWordChar, plain.notUpper⟩
  have lower : ∀ word ∈ Text.splitOn '-' token.toList, Text.lowerWord word = word := by
    intro word member
    have plain := fun c inWord => isPlain_of_isTokenChar ((isToken word member).2 c inWord)
    rw [Text.lowerWord_eq_flatMap fun c inWord => (plain c inWord).noSigma]
    exact (List.flatMap_congr fun c inWord => (plain c inWord).lowerForm).trans
      (List.flatMap_singleton' word)
  rw [Text.kebab, words, List.map_congr_left lower, List.map_id', Text.joinWith_splitOn]

end IsToken

/-- The tokens are the texts that normalization leaves as they are. -/
theorem normalize_eq_self_iff {token : String} : normalize token = .ok token ↔ IsToken token := by
  refine ⟨isToken_of_normalize, fun isToken => ?_⟩
  have plain : ∀ c ∈ token.toList, isNameChar c = true ∧ Text.isBlank c = false := by
    intro c member
    rcases isToken.mem_toList member with rfl | letter
    · decide
    · have plain := isPlain_of_isTokenChar letter
      exact ⟨plain.isNameChar, plain.notBlank⟩
  have spelled : strip token.toList = token.toList := by
    have trimmed : Text.trim token.toList = token.toList :=
      Text.stripWhile_eq_self fun c member => (plain c member).2
    have noSlash : ∀ c ∈ token.toList, c ≠ '/' :=
      fun c member same => isToken.slash_not_mem (same ▸ member)
    rw [strip, trimmed]
    exact Text.dropEndWhile_eq_self fun c member => by simpa using noSlash c member
  rw [normalize_eq_ok_iff, spelled, isToken.kebab_eq, String.ofList_toList]
  exact ⟨fun c member => (plain c member).1, isToken.toList_ne_nil, rfl⟩

/-! ## Plural nouns -/

theorem mapLast_concat {α : Type} (f : α → α) (front : List α) (last : α) :
    mapLast f (front ++ [last]) = front ++ [f last] := by
  induction front with
  | nil => rfl
  | cons first front ih =>
      cases front with
      | nil => rfl
      | cons next front =>
          rw [List.cons_append, List.cons_append, mapLast, ← List.cons_append, ih]
          rfl

theorem mem_mapLast {α : Type} {f : α → α} {items : List α} {result : α}
    (member : result ∈ mapLast f items) : result ∈ items ∨ ∃ item ∈ items, result = f item := by
  rcases List.eq_nil_or_concat' items with rfl | ⟨front, last, rfl⟩
  · cases member
  · rw [mapLast_concat] at member
    rcases List.mem_append.mp member with inFront | isLast
    · exact Or.inl (List.mem_append_left _ inFront)
    · exact Or.inr ⟨last, List.mem_append_right _ List.mem_cons_self, List.mem_singleton.mp isLast⟩

theorem mapLast_ne_nil {α : Type} {f : α → α} {items : List α} (nonempty : items ≠ []) :
    mapLast f items ≠ [] := by
  rcases List.eq_nil_or_concat' items with rfl | ⟨front, last, rfl⟩
  · exact absurd rfl nonempty
  · rw [mapLast_concat]
    exact List.append_ne_nil_of_right_ne_nil _ (List.cons_ne_nil _ _)

theorem IsWord.append {word ending : List Char} (isWord : IsWord word)
    (letters : ending.all isTokenChar = true) : IsWord (word ++ ending) := by
  refine ⟨by simp [isWord.1], fun c member => ?_⟩
  rcases List.mem_append.mp member with inWord | inEnding
  · exact isWord.2 c inWord
  · exact List.all_eq_true.mp letters c inEnding

theorem isWord_pluralWord {word : List Char} (isWord : IsWord word) : IsWord (pluralWord word) := by
  unfold pluralWord
  split
  · exact isWord.append (by decide)
  · split
    · exact isWord
    · next before rest reversed =>
      split
      · exact isWord.append (by decide)
      · have stem : IsWord (before :: rest).reverse := by
          refine ⟨by simp, fun c member => isWord.2 c ?_⟩
          rw [← List.mem_reverse, reversed]
          exact List.mem_cons_of_mem _ (List.mem_reverse.mp member)
        exact stem.append (by decide)
    · exact isWord.append (by decide)

/-- The plural of a token is a token. -/
theorem isToken_plural {noun : String} (isToken : IsToken noun) : IsToken (plural noun) := by
  refine isToken_joinWith (mapLast_ne_nil (Text.splitOn_ne_nil _ _)) fun word member => ?_
  rcases mem_mapLast member with old | ⟨last, inPieces, rfl⟩
  · exact isToken word old
  · exact isWord_pluralWord (isToken last inPieces)

end Name

end ModuleRoutes
