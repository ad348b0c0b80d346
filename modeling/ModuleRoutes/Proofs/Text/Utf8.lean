import ModuleRoutes.Text.Utf8

/-!
# UTF-8 read and written

One step over bytes takes a character exactly from the bytes that the character is written with
(`ModuleRoutes.Text.utf8Step_eq_char_iff`). So bytes are read strictly as a text exactly when they
are the bytes of the text (`ModuleRoutes.Text.decodeUtf8?_eq_some_iff`), and only one text has them.
-/

namespace ModuleRoutes

namespace Text

variable {first second b d : UInt8} {bytes rest : List UInt8} {c : Char} {text : List Char}

/-! ## The bytes of a character -/

theorem isContinuation_iff : isContinuation b = true ↔ 0x80 ≤ b.toNat ∧ b.toNat < 0xC0 := by
  simp [isContinuation]

/-- The second of three bytes leaves out what two bytes could write, and the surrogates. -/
theorem fitsThree_iff :
    fitsThree first second = true ↔ (0x80 ≤ second.toNat ∧ second.toNat < 0xC0) ∧
      (first.toNat = 0xE0 → 0xA0 ≤ second.toNat) ∧ (first.toNat = 0xED → second.toNat < 0xA0) := by
  unfold fitsThree
  split
  · simp only [Bool.and_eq_true, decide_eq_true_eq]
    omega
  · split
    · simp only [Bool.and_eq_true, decide_eq_true_eq]
      omega
    · rw [isContinuation_iff]
      omega

/-- The second of four bytes leaves out what three bytes could write, and what is no code point. -/
theorem fitsFour_iff :
    fitsFour first second = true ↔ (0x80 ≤ second.toNat ∧ second.toNat < 0xC0) ∧
      (first.toNat = 0xF0 → 0x90 ≤ second.toNat) ∧ (first.toNat = 0xF4 → second.toNat < 0x90) := by
  unfold fitsFour
  split
  · simp only [Bool.and_eq_true, decide_eq_true_eq]
    omega
  · split
    · simp only [Bool.and_eq_true, decide_eq_true_eq]
      omega
    · rw [isContinuation_iff]
      omega

theorem ofNat_eq_of_eq_toNat {code : Nat} (same : code = b.toNat) : UInt8.ofNat code = b := by
  rw [same, UInt8.ofNat_toNat]

theorem toNat_ofNat_of_isValidChar {code : Nat} (valid : code.isValidChar) :
    (Char.ofNat code).val.toNat = code := by
  rw [Char.ofNat, dif_pos valid]
  rfl

/-- The bytes of a character are read as the character, whatever follows. -/
theorem exists_utf8Step_utf8EncodeChar (c : Char) (rest : List UInt8) :
    ∃ first more, String.utf8EncodeChar c = first :: more ∧
      utf8Step first (more ++ rest) = .char c rest := by
  have valid : c.val.toNat < 0xD800 ∨ 0xDFFF < c.val.toNat ∧ c.val.toNat < 0x110000 := c.valid
  have reread : ∀ code, code = c.val.toNat → Char.ofNat code = c := by
    rintro _ rfl
    exact Char.ofNat_toNat c
  unfold String.utf8EncodeChar
  generalize c.val.toNat = value at *
  dsimp only
  -- One case for each number of bytes; the arithmetic is that of the leading marks.
  split
  · refine ⟨_, _, rfl, ?_⟩
    simp only [utf8Step, UInt8.toNat_ofNat', List.nil_append]
    rw [if_pos (by omega), reread _ (by omega)]
  split
  · refine ⟨_, _, rfl, ?_⟩
    simp only [utf8Step, UInt8.toNat_ofNat', isContinuation_iff, payload, List.cons_append,
      List.nil_append]
    rw [if_neg (by omega), if_neg (by omega), if_pos (by omega), if_pos (by omega),
      reread _ (by omega)]
  split
  · refine ⟨_, _, rfl, ?_⟩
    simp only [utf8Step, UInt8.toNat_ofNat', isContinuation_iff, fitsThree_iff, payload,
      List.cons_append, List.nil_append]
    rw [if_neg (by omega), if_neg (by omega), if_neg (by omega), if_pos (by omega),
      if_pos (by omega), if_pos (by omega), reread _ (by omega)]
  · refine ⟨_, _, rfl, ?_⟩
    simp only [utf8Step, UInt8.toNat_ofNat', isContinuation_iff, fitsFour_iff, payload,
      List.cons_append, List.nil_append]
    rw [if_neg (by omega), if_neg (by omega), if_neg (by omega), if_neg (by omega),
      if_pos (by omega), if_pos (by omega), if_pos (by omega), if_pos (by omega),
      reread _ (by omega)]

theorem utf8EncodeChar_one (low : first.toNat < 0x80) :
    String.utf8EncodeChar (Char.ofNat first.toNat) = [first] := by
  rw [String.utf8EncodeChar, toNat_ofNat_of_isValidChar (.inl (by omega)), if_pos (by omega),
    UInt8.ofNat_toNat]

theorem utf8EncodeChar_two (low : 0xC2 ≤ first.toNat) (high : first.toNat < 0xE0)
    (next : isContinuation b = true) :
    String.utf8EncodeChar (Char.ofNat ((first.toNat - 0xC0) * 0x40 + payload b)) = [first, b] := by
  rw [isContinuation_iff] at next
  rw [payload, String.utf8EncodeChar, toNat_ofNat_of_isValidChar (.inl (by omega)),
    if_neg (by omega), if_pos (by omega), ofNat_eq_of_eq_toNat (b := first) (by omega),
    ofNat_eq_of_eq_toNat (b := b) (by omega)]

theorem utf8EncodeChar_three (low : 0xE0 ≤ first.toNat) (high : first.toNat < 0xF0)
    (fits : fitsThree first second = true) (next : isContinuation b = true) :
    String.utf8EncodeChar (Char.ofNat
      ((first.toNat - 0xE0) * 0x1000 + payload second * 0x40 + payload b)) =
        [first, second, b] := by
  rw [fitsThree_iff] at fits
  rw [isContinuation_iff] at next
  rw [payload, payload, String.utf8EncodeChar,
    toNat_ofNat_of_isValidChar (by unfold Nat.isValidChar; omega), if_neg (by omega),
    if_neg (by omega), if_pos (by omega), ofNat_eq_of_eq_toNat (b := first) (by omega),
    ofNat_eq_of_eq_toNat (b := second) (by omega), ofNat_eq_of_eq_toNat (b := b) (by omega)]

theorem utf8EncodeChar_four (low : 0xF0 ≤ first.toNat) (high : first.toNat < 0xF5)
    (fits : fitsFour first second = true) (next : isContinuation b = true)
    (last : isContinuation d = true) :
    String.utf8EncodeChar (Char.ofNat ((first.toNat - 0xF0) * 0x40000 + payload second * 0x1000
      + payload b * 0x40 + payload d)) = [first, second, b, d] := by
  rw [fitsFour_iff] at fits
  rw [isContinuation_iff] at next last
  rw [payload, payload, payload, String.utf8EncodeChar,
    toNat_ofNat_of_isValidChar (by unfold Nat.isValidChar; omega), if_neg (by omega),
    if_neg (by omega), if_neg (by omega), ofNat_eq_of_eq_toNat (b := first) (by omega),
    ofNat_eq_of_eq_toNat (b := second) (by omega), ofNat_eq_of_eq_toNat (b := b) (by omega),
    ofNat_eq_of_eq_toNat (b := d) (by omega)]

/-- The bytes that are read as a character are those of the character. -/
theorem eq_utf8EncodeChar_of_utf8Step (step : utf8Step first bytes = .char c rest) :
    first :: bytes = String.utf8EncodeChar c ++ rest := by
  unfold utf8Step at step
  extract_lets lead at step
  -- Only the branch in which all bytes of one length have been read gives a character.
  split at step
  · next one =>
    cases step
    rw [utf8EncodeChar_one one]
    rfl
  split at step
  · cases step
  split at step
  · split at step
    · split at step
      · next next =>
        cases step
        rw [utf8EncodeChar_two (by omega) (by omega) next]
        rfl
      · cases step
    · cases step
  split at step
  · split at step
    · split at step
      · next fits =>
        split at step
        · split at step
          · next next =>
            cases step
            rw [utf8EncodeChar_three (by omega) (by omega) fits next]
            rfl
          · cases step
        · cases step
      · cases step
    · cases step
  split at step
  · split at step
    · split at step
      · next fits =>
        split at step
        · split at step
          · next next =>
            split at step
            · split at step
              · next last =>
                cases step
                rw [utf8EncodeChar_four (by omega) (by omega) fits next last]
                rfl
              · cases step
            · cases step
          · cases step
        · cases step
      · cases step
    · cases step
  · cases step

/-- A character is read exactly from its bytes. -/
theorem utf8Step_eq_char_iff :
    utf8Step first bytes = .char c rest ↔ first :: bytes = String.utf8EncodeChar c ++ rest := by
  refine ⟨eq_utf8EncodeChar_of_utf8Step, fun written => ?_⟩
  obtain ⟨_, more, encoded, step⟩ := exists_utf8Step_utf8EncodeChar c rest
  rw [encoded, List.cons_append, List.cons.injEq] at written
  obtain ⟨rfl, rfl⟩ := written
  exact step

/-! ## The bytes of a text -/

theorem encodeUtf8_cons (c : Char) (text : List Char) :
    encodeUtf8 (c :: text) = String.utf8EncodeChar c ++ encodeUtf8 text := List.flatMap_cons

theorem nil_eq_encodeUtf8_iff : [] = encodeUtf8 text ↔ [] = text := by
  cases text with
  | nil => exact iff_of_true rfl rfl
  | cons c text =>
      obtain ⟨first, more, encoded, -⟩ := exists_utf8Step_utf8EncodeChar c []
      rw [encodeUtf8_cons, encoded]
      exact iff_of_false nofun nofun

theorem length_lt_of_utf8Step (step : utf8Step first bytes = .char c rest) :
    rest.length < (first :: bytes).length := by
  obtain ⟨_, more, encoded, -⟩ := exists_utf8Step_utf8EncodeChar c []
  rw [utf8Step_eq_char_iff.mp step, encoded, List.cons_append, List.length_cons,
    List.length_append]
  omega

theorem utf8Chars_none_eq_some_iff {limit : Nat} (enough : bytes.length ≤ limit) :
    utf8Chars none limit bytes = some text ↔ bytes = encodeUtf8 text := by
  induction limit generalizing bytes text with
  | zero =>
      obtain rfl := List.eq_nil_of_length_eq_zero (Nat.le_zero.mp enough)
      rw [utf8Chars, Option.some.injEq, nil_eq_encodeUtf8_iff]
  | succ limit ih =>
      cases bytes with
      | nil => rw [utf8Chars, Option.some.injEq, nil_eq_encodeUtf8_iff]
      | cons first bytes =>
          rw [utf8Chars]
          constructor
          · intro read
            cases step : utf8Step first bytes with
            | malformed after =>
                rw [step] at read
                cases read
            | char c after =>
                rw [step] at read
                obtain ⟨others, later, rfl⟩ := Option.map_eq_some_iff.mp read
                have shorter := length_lt_of_utf8Step step
                rw [encodeUtf8_cons, ← (ih (by omega)).mp later]
                exact utf8Step_eq_char_iff.mp step
          · intro written
            cases text with
            | nil => cases written
            | cons c text =>
                rw [encodeUtf8_cons] at written
                have step := utf8Step_eq_char_iff.mpr written
                have shorter := length_lt_of_utf8Step step
                rw [step]
                exact Option.map_eq_some_iff.mpr ⟨text, (ih (by omega)).mpr rfl, rfl⟩

/-- **Strict reading.** Bytes are read as a text exactly when they are the bytes of the text. -/
theorem decodeUtf8?_eq_some_iff : decodeUtf8? bytes = some text ↔ bytes = encodeUtf8 text :=
  utf8Chars_none_eq_some_iff (Nat.le_refl _)

end Text

end ModuleRoutes
