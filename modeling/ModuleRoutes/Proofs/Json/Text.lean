import ModuleRoutes.Json.Printer
import ModuleRoutes.Json.Reader

/-!
# Texts in quotes

Every text is read back from between its quotes, whatever its characters
(`ModuleRoutes.Json.readText_quoted`): quotes, backslashes and controls are escaped where they are
written, and each escape stands for the one character that it was written for.
-/

namespace ModuleRoutes

namespace Json

open Text

/-! ## Escapes -/

/-- The characters that are written as one character after a backslash, with that character. -/
def lettered : List (Char × Char) :=
  [('"', '"'), ('\\', '\\'), ('b', Char.ofNat 8), ('t', '\t'), ('n', '\n'), ('f', Char.ofNat 12),
    ('r', '\r')]

/-- The unit that a character is read as after it is written: itself, or the number of a control
that is written by its number. -/
def writtenUnit (c : Char) : Char ⊕ Nat :=
  if c.toNat < 32 ∧ c ∉ lettered.map Prod.snd then .inr c.toNat else .inl c

/-- The digits of a control's number stand for it. -/
theorem hexNumber?_control {n : Nat} (control : n < 32) :
    hexNumber? ['0', '0', Nat.digitChar (n / 16), Nat.digitChar (n % 16)] = some n := by
  revert n
  decide

theorem textUnits_lettered {letter c : Char} (mem : (letter, c) ∈ lettered) (rest : List Char) :
    textUnits ('\\' :: letter :: rest) =
      (textUnits rest).map fun read => (.inl c :: read.1, read.2) := by
  simp only [lettered, List.mem_cons, Prod.mk.injEq, List.not_mem_nil, or_false] at mem
  rcases mem with ⟨rfl, rfl⟩ | ⟨rfl, rfl⟩ | ⟨rfl, rfl⟩ | ⟨rfl, rfl⟩ | ⟨rfl, rfl⟩ | ⟨rfl, rfl⟩ |
      ⟨rfl, rfl⟩ <;>
    cases units : textUnits rest <;> simp [textUnits, units]

theorem textUnits_numbered {n : Nat} (control : n < 32) (rest : List Char) :
    textUnits ('\\' :: 'u' :: '0' :: '0' :: Nat.digitChar (n / 16) :: Nat.digitChar (n % 16)
      :: rest) = (textUnits rest).map fun read => (.inr n :: read.1, read.2) := by
  rw [textUnits, hexNumber?_control control]
  cases textUnits rest <;> rfl

theorem textUnits_plain {c : Char} (noQuote : c ≠ '"') (noBackslash : c ≠ '\\')
    (noControl : ¬c.toNat < 32) (rest : List Char) :
    textUnits (c :: rest) = (textUnits rest).map fun read => (.inl c :: read.1, read.2) := by
  rw [textUnits]
  · rw [if_neg (by simp [noBackslash, noControl])]
    cases textUnits rest <;> rfl
  · exact noQuote
  · exact fun _ _ _ _ _ backslash => absurd backslash noBackslash
  · exact fun _ _ backslash => absurd backslash noBackslash

theorem escapeChar_lettered : ∀ pair ∈ lettered, escapeChar pair.2 = ['\\', pair.1] := by
  decide

theorem ne_of_not_lettered {c other : Char} (unlettered : c ∉ lettered.map Prod.snd)
    (mem : other ∈ lettered.map Prod.snd) : c ≠ other :=
  fun same => unlettered (same ▸ mem)

/-- A character without a letter is written by its number if it is a control, and as it is
otherwise. -/
theorem escapeChar_of_not_lettered {c : Char} (unlettered : c ∉ lettered.map Prod.snd) :
    escapeChar c =
      if c.toNat < 32 then
        ['\\', 'u', '0', '0', Nat.digitChar (c.toNat / 16), Nat.digitChar (c.toNat % 16)]
      else [c] := by
  have apart : ∀ n ∈ [8, 9, 10, 12, 13], c.toNat ≠ n := by
    rintro n mem rfl
    have control : ∀ n ∈ [8, 9, 10, 12, 13], Char.ofNat n ∈ lettered.map Prod.snd := by decide
    exact unlettered (Char.ofNat_toNat c ▸ control c.toNat mem)
  unfold escapeChar
  rw [if_neg (ne_of_not_lettered unlettered (by decide)),
    if_neg (ne_of_not_lettered unlettered (by decide)), if_neg (apart 8 (by decide)),
    if_neg (apart 9 (by decide)), if_neg (apart 10 (by decide)), if_neg (apart 12 (by decide)),
    if_neg (apart 13 (by decide))]

theorem textUnits_escapeChar (c : Char) (rest : List Char) :
    textUnits (escapeChar c ++ rest) =
      (textUnits rest).map fun read => (writtenUnit c :: read.1, read.2) := by
  by_cases mem : c ∈ lettered.map Prod.snd
  · obtain ⟨⟨letter, c⟩, mem', rfl⟩ := List.mem_map.mp mem
    rw [escapeChar_lettered _ mem', writtenUnit, if_neg fun numbered => numbered.2 mem]
    exact textUnits_lettered mem' rest
  · rw [escapeChar_of_not_lettered mem, writtenUnit]
    by_cases control : c.toNat < 32
    · rw [if_pos control, if_pos ⟨control, mem⟩]
      exact textUnits_numbered control rest
    · rw [if_neg control, if_neg fun numbered => control numbered.1]
      exact textUnits_plain (ne_of_not_lettered mem (by decide))
        (ne_of_not_lettered mem (by decide)) control rest

/-- A text is read unit by unit up to its closing quote. -/
theorem textUnits_quoted (chars rest : List Char) :
    textUnits (chars.flatMap escapeChar ++ '"' :: rest) = some (chars.map writtenUnit, rest) := by
  induction chars with
  | nil => simp [textUnits]
  | cons c chars ih =>
    rw [List.flatMap_cons, List.append_assoc, textUnits_escapeChar, ih]
    rfl

/-! ## Characters -/

/-- The number of a control stands for it. -/
theorem unitChars_number {n : Nat} (control : n < 32) (rest : List (Char ⊕ Nat)) :
    unitChars (.inr n :: rest) = (unitChars rest).map (Char.ofNat n :: ·) := by
  have noHigh : ¬(0xD800 ≤ n ∧ n < 0xDC00) := by omega
  have noLow : ¬(0xDC00 ≤ n ∧ n < 0xE000) := by omega
  have noSurrogate : ¬(0xD800 ≤ n ∧ n < 0xE000) := by omega
  cases rest with
  | nil => simp only [unitChars, if_neg noSurrogate]
  | cons unit rest =>
    cases unit with
    | inl c => simp only [unitChars, if_neg noSurrogate]
    | inr low => simp only [unitChars, if_neg noHigh, if_neg noLow]

theorem unitChars_writtenUnit (c : Char) (rest : List (Char ⊕ Nat)) :
    unitChars (writtenUnit c :: rest) = (unitChars rest).map (c :: ·) := by
  unfold writtenUnit
  split
  case isTrue numbered => rw [unitChars_number numbered.1, Char.ofNat_toNat]
  case isFalse => rw [unitChars]

theorem unitChars_map_writtenUnit (chars : List Char) :
    unitChars (chars.map writtenUnit) = some chars := by
  induction chars with
  | nil => rw [List.map_nil, unitChars]
  | cons c chars ih => rw [List.map_cons, unitChars_writtenUnit, ih, Option.map_some]

/-- A text is read back from behind its opening quote. -/
theorem readText_quoted (text : String) (rest : List Char) :
    readText (text.toList.flatMap escapeChar ++ '"' :: rest) = some (some text, rest) := by
  simp only [readText, textUnits_quoted, Option.map_some, unitChars_map_writtenUnit,
    String.ofList_toList]

end Json

end ModuleRoutes
