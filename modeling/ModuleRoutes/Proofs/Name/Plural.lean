import ModuleRoutes.Proofs.Name.Token

/-!
# Plurals of plurals

A word in the plural ends in a single `s`, and a word that ends so is its own plural. So the plural
of a token stays as it is when it is put in the plural again
(`ModuleRoutes.Name.plural_plural`). It is a token with as many words, all but the last of which are
those of the noun (`ModuleRoutes.Name.normalize_plural`).
-/

namespace ModuleRoutes

namespace Name

/-- A word that ends in an `s` with no other one before it. -/
def EndsPlural (word : List Char) : Prop :=
  ∃ stem, word.reverse = 's' :: stem ∧ stem.head? ≠ some 's'

theorem pluralWord_of_endsPlural {word : List Char} (plural : EndsPlural word) :
    pluralWord word = word := by
  obtain ⟨stem, reversed, single⟩ := plural
  have noSibilant : (sibilants.any fun ending => Text.endsWith ending word) = false := by
    cases stem with
    | nil => simp [sibilants, Text.endsWith, Text.afterStart?, reversed]
    | cons c stem =>
        have apart : c ≠ 's' := fun same => single (by rw [same, List.head?_cons])
        simp [sibilants, Text.endsWith, Text.afterStart?, reversed, apart.symm]
  simp only [pluralWord, noSibilant, reversed, Bool.false_eq_true, if_false]

theorem endsPlural_append {word ending : List Char} {stem : List Char}
    (reversed : ending.reverse = 's' :: stem) (single : (stem ++ word.reverse).head? ≠ some 's') :
    EndsPlural (word ++ ending) :=
  ⟨stem ++ word.reverse, by rw [List.reverse_append, reversed, List.cons_append], single⟩

/-- The plural of a word ends in a single `s`. -/
theorem endsPlural_pluralWord (word : List Char) : EndsPlural (pluralWord word) := by
  unfold pluralWord
  split
  · exact endsPlural_append rfl (by simp)
  · next noSibilant =>
    split
    · -- A word in `ss` takes `es`, so the `s` at the end of this one stands alone.
      next rest reversed =>
      refine ⟨rest, reversed, fun twice => noSibilant ?_⟩
      obtain ⟨tail, rfl⟩ := List.head?_eq_some_iff.mp twice
      simp [sibilants, Text.endsWith, Text.afterStart?, reversed]
    · next before rest reversed =>
      split
      · exact endsPlural_append rfl (by simp [reversed])
      · exact endsPlural_append rfl (by simp)
    · next noS _ =>
      refine endsPlural_append rfl fun twice => ?_
      obtain ⟨tail, reversed⟩ := List.head?_eq_some_iff.mp twice
      exact noS tail reversed

theorem mapLast_mapLast {α : Type} {f : α → α} {items : List α}
    (idempotent : ∀ item ∈ items, f (f item) = f item) :
    mapLast f (mapLast f items) = mapLast f items := by
  rcases List.eq_nil_or_concat' items with rfl | ⟨front, last, rfl⟩
  · rfl
  · rw [mapLast_concat, mapLast_concat, idempotent last (by simp)]

theorem splitOn_plural {noun : String} (isToken : IsToken noun) :
    Text.splitOn '-' (plural noun).toList =
      mapLast pluralWord (Text.splitOn '-' noun.toList) := by
  have free : ∀ word ∈ mapLast pluralWord (Text.splitOn '-' noun.toList), '-' ∉ word := by
    intro word member hyphen
    have isWord : IsWord word := by
      rcases mem_mapLast member with old | ⟨last, inPieces, rfl⟩
      · exact isToken word old
      · exact isWord_pluralWord (isToken last inPieces)
    exact absurd (isWord.2 _ hyphen) (by decide)
  rw [plural, String.toList_ofList]
  exact Text.splitOn_joinWith free (mapLast_ne_nil (Text.splitOn_ne_nil _ _))

/-- The plural of a token is its own plural. -/
theorem plural_plural {noun : String} (isToken : IsToken noun) :
    plural (plural noun) = plural noun := by
  have pieces := @mapLast_mapLast _ pluralWord (Text.splitOn '-' noun.toList)
    fun word _ => pluralWord_of_endsPlural (endsPlural_pluralWord word)
  rw [plural, splitOn_plural isToken, pieces, ← plural]

example : plural "price-category" = "price-categories" := by decide +kernel

/-- **Plural nouns.** The plural of a normalized noun is normalized and is its own plural. It has as
many words as the noun, and all but the last are the same; the last one ends in a single `s`. -/
theorem normalize_plural {raw noun : String} (normal : normalize raw = .ok noun) :
    normalize (plural noun) = .ok (plural noun) ∧ plural (plural noun) = plural noun ∧
      (Text.splitOn '-' (plural noun).toList).length = (Text.splitOn '-' noun.toList).length ∧
      (Text.splitOn '-' (plural noun).toList).dropLast =
        (Text.splitOn '-' noun.toList).dropLast ∧
      ∃ last, (Text.splitOn '-' (plural noun).toList).getLast? = some last ∧ EndsPlural last := by
  have isToken := isToken_of_normalize normal
  obtain ⟨front, last, pieces⟩ :=
    (List.eq_nil_or_concat' _).resolve_left (Text.splitOn_ne_nil '-' noun.toList)
  have plurals : Text.splitOn '-' (plural noun).toList = front ++ [pluralWord last] := by
    rw [splitOn_plural isToken, pieces, mapLast_concat]
  refine ⟨normalize_eq_self_iff.mpr (isToken_plural isToken), plural_plural isToken, ?_, ?_, ?_⟩
  · rw [plurals, pieces, List.length_append, List.length_append, List.length_singleton,
      List.length_singleton]
  · rw [plurals, pieces, List.dropLast_concat, List.dropLast_concat]
  · rw [plurals, List.getLast?_concat]
    exact ⟨_, rfl, endsPlural_pluralWord last⟩

theorem normalize_plural_category :
    normalize "Price_Category" = .ok "price-category" ∧
      normalize (plural "price-category") = .ok (plural "price-category") ∧
      plural (plural "price-category") = plural "price-category" ∧
      (Text.splitOn '-' (plural "price-category").toList).length =
        (Text.splitOn '-' "price-category".toList).length ∧
      (Text.splitOn '-' (plural "price-category").toList).dropLast =
        (Text.splitOn '-' "price-category".toList).dropLast ∧
      ∃ last, (Text.splitOn '-' (plural "price-category").toList).getLast? = some last ∧
        EndsPlural last := by
  have normal : normalize "Price_Category" = .ok "price-category" := by decide +kernel
  exact ⟨normal, normalize_plural normal⟩

end Name

end ModuleRoutes
