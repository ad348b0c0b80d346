import ModuleRoutes.Definition.TomlText
import ModuleRoutes.Proofs.Toml.Quoted

/-!
# Lines as statements

A line that gives a key a value is read as that statement, and so is the header of a table in an
array. Lines one after another are read as the statements of each
(`ModuleRoutes.Toml.Spells.append`).
-/

namespace ModuleRoutes

namespace Toml

open Encoding

/-! ## Keys -/

/-- A key that needs no quotes. -/
def IsBareKey (key : String) : Prop :=
  key.toList ≠ [] ∧ key.toList.all isBareKeyChar = true

instance (key : String) : Decidable (IsBareKey key) := inferInstanceAs (Decidable (_ ∧ _))

variable {key : String} {c : Char} {value rest : List Char} {datum : Datum}

theorem exists_bareKey_eq_cons (bare : IsBareKey key) :
    ∃ first more, key.toList = first :: more ∧ isBareKeyChar first = true := by
  obtain ⟨nonempty, all⟩ := bare
  obtain ⟨first, more, chars⟩ := List.exists_cons_of_ne_nil nonempty
  rw [chars, List.all_cons, Bool.and_eq_true] at all
  exact ⟨first, more, chars, all.1⟩

theorem ne_of_isBareKeyChar (bare : isBareKeyChar c = true) (other : Char)
    (notBare : isBareKeyChar other = false) : c ≠ other := by
  rintro rfl
  rw [bare] at notBare
  cases notBare

theorem ne_cons_of_bareKey (bare : IsBareKey key) {other : Char}
    (notBare : isBareKeyChar other = false) {rest tail : List Char} :
    key.toList ++ rest ≠ other :: tail := by
  obtain ⟨first, more, chars, head⟩ := exists_bareKey_eq_cons bare
  rw [chars]
  exact fun equal => ne_of_isBareKeyChar head other notBare (List.cons.inj equal).1

theorem skipSpace_cons (visible : isSpace c = false) (rest : List Char) :
    skipSpace (c :: rest) = c :: rest :=
  List.dropWhile_cons_of_neg (by rw [visible]; decide)

theorem skipSpace_bareKey (bare : IsBareKey key) (rest : List Char) :
    skipSpace (key.toList ++ rest) = key.toList ++ rest := by
  obtain ⟨first, more, chars, head⟩ := exists_bareKey_eq_cons bare
  have visible : isSpace first = false := by
    have noBlank := ne_of_isBareKeyChar head ' ' (by decide)
    have noTab := ne_of_isBareKeyChar head '\t' (by decide)
    simp [isSpace, noBlank, noTab]
  rw [chars, List.cons_append, skipSpace_cons visible]

theorem readKeyPart_bare (bare : IsBareKey key) (ends : isBareKeyChar c = false)
    (rest : List Char) : readKeyPart (key.toList ++ c :: rest) = some (key, c :: rest) := by
  obtain ⟨first, more, chars, head⟩ := exists_bareKey_eq_cons bare
  have all := List.all_eq_true.mp bare.2
  have taken : (key.toList ++ c :: rest).takeWhile isBareKeyChar = key.toList := by
    rw [List.takeWhile_append_of_pos all, List.takeWhile_cons_of_neg (by rw [ends]; decide),
      List.append_nil]
  have dropped : (key.toList ++ c :: rest).dropWhile isBareKeyChar = c :: rest := by
    rw [List.dropWhile_append_of_pos all, List.dropWhile_cons_of_neg (by rw [ends]; decide)]
  unfold readKeyPart
  split
  · next equal => exact absurd equal (ne_cons_of_bareKey bare (by decide))
  · next equal => exact absurd equal (ne_cons_of_bareKey bare (by decide))
  · rw [taken, dropped, chars]
    simp only
    rw [← chars, String.ofList_toList]

/-- A key with nothing behind it but blanks is a path of one step. -/
theorem readKey_bare {key : String} (bare : IsBareKey key) (ends : isBareKeyChar c = false)
    (last : (skipSpace (c :: rest)).head? ≠ some '.') (bound : Nat) :
    readKey (bound + 1) (key.toList ++ c :: rest) = some ([key], skipSpace (c :: rest)) := by
  rw [readKey, skipSpace_bareKey bare, readKeyPart_bare bare ends]
  simp only [bind, Option.bind]
  split
  · next dotted =>
    rw [dotted] at last
    exact absurd rfl last
  · rfl

theorem readKey_dotted (bare : IsBareKey key) (bound : Nat) (rest : List Char) :
    readKey (bound + 1) (key.toList ++ '.' :: rest) =
      (readKey bound rest).map fun (parts, after) => (key :: parts, after) := by
  rw [readKey, skipSpace_bareKey bare, readKeyPart_bare bare (by decide)]
  rfl

/-! ## Values -/

/-- Characters that are read as a value at the end of a line. -/
structure IsValue (value : List Char) (datum : Datum) : Prop where
  visible : ∀ rest, skipSpace (value ++ '\n' :: rest) = value ++ '\n' :: rest
  read : ∀ steps rest, readValue (steps + 2) depthLimit (value ++ '\n' :: rest) =
    some (datum, '\n' :: rest)

theorem isValue_quote (value : String) : IsValue (quote value) (.text value) := by
  obtain ⟨mark, body, written, isMark⟩ := exists_quote_eq_cons value
  refine ⟨fun rest => ?_, fun steps rest => ?_⟩
  · rw [written, List.cons_append, skipSpace_cons]
    rcases isMark with rfl | rfl <;> rfl
  · have read := readString_quote value rest
    rw [written, List.cons_append] at read ⊢
    rcases isMark with rfl | rfl <;> simp [readValue, read]

theorem isValue_bool (value : Bool) :
    IsValue (if value then "true".toList else "false".toList) (.bool value) := by
  cases value <;> exact ⟨fun _ => rfl, fun _ _ => rfl⟩

theorem isValue_empty : IsValue ['[', ']'] (.list [] true) :=
  ⟨fun _ => rfl, fun _ _ => rfl⟩

/-! ## Lines -/

/-- A text that is read as statements, whatever follows it. Each statement takes one step of the
reader, which needs two more for a key of two parts. -/
structure Spells (text : List Char) (statements : List Statement) : Prop where
  length_le : 2 * statements.length ≤ text.length
  read : ∀ steps rest, 2 ≤ steps → readStatements (statements.length + steps) (text ++ rest) =
    (readStatements steps rest).map (statements ++ ·)

theorem Spells.nil : Spells [] [] := ⟨Nat.le_refl _, by simp⟩

theorem Spells.append {first second : List Char} {before after : List Statement}
    (spellsFirst : Spells first before) (spellsSecond : Spells second after) :
    Spells (first ++ second) (before ++ after) where
  length_le := by
    have shortFirst := spellsFirst.length_le
    have shortSecond := spellsSecond.length_le
    rw [List.length_append, List.length_append]
    omega
  read := by
    intro steps rest enough
    rw [List.length_append, Nat.add_assoc, List.append_assoc,
      spellsFirst.read _ _ (Nat.le_add_left_of_le enough), spellsSecond.read _ _ enough,
      Option.map_map]
    simp [Function.comp_def]

theorem Spells.flatMap {α : Type} {text : α → List Char} {statements : α → List Statement}
    (each : ∀ item, Spells (text item) (statements item)) (items : List α) :
    Spells (items.flatMap text) (items.flatMap statements) := by
  induction items with
  | nil => exact .nil
  | cons item items ih => exact (each item).append ih

/-- A line is read as its statement, with blank lines before it or not. -/
theorem Spells.line (front line : List Char) {statement : Statement} (nonempty : line ≠ [])
    (blank : ∀ rest, skipLines false (front ++ line ++ rest) = some (line ++ rest))
    (read : ∀ steps rest, readStatement (steps + 2) (line ++ '\n' :: rest) =
      some (statement, '\n' :: rest)) : Spells (front ++ line ++ ['\n']) [statement] where
  length_le := by
    have positive := List.length_pos_iff.mpr nonempty
    simp only [List.length_append, List.length_singleton]
    omega
  read := by
    intro steps rest enough
    obtain ⟨steps, rfl⟩ := Nat.exists_eq_add_of_le' enough
    have reads := read steps rest
    have skips := blank ('\n' :: rest)
    obtain ⟨c, more, rfl⟩ := List.exists_cons_of_ne_nil nonempty
    rw [List.length_singleton, Nat.add_comm, List.append_assoc (front ++ c :: more),
      List.singleton_append, readStatements, skips]
    rw [List.cons_append] at reads
    simp only [bind, Option.bind, List.cons_append, reads]
    rfl

theorem skipLines_cons (visible : c ∉ ['\n', '\r', ' ', '\t', '#']) (rest : List Char) :
    skipLines false (c :: rest) = some (c :: rest) := by
  rw [skipLines.eq_def]
  simp only [List.mem_cons, List.not_mem_nil, or_false, not_or] at visible
  simp [isSpace, visible]

/-- A key with a value is an assignment. -/
theorem readStatement_entry (bare : IsBareKey key) (isValue : IsValue value datum) (steps : Nat)
    (rest : List Char) :
    readStatement (steps + 2) (key.toList ++ [' ', '=', ' '] ++ value ++ '\n' :: rest) =
      some (.assign [] key datum, '\n' :: rest) := by
  have path : readKey (steps + 2) (key.toList ++ ' ' :: '=' :: ' ' :: (value ++ '\n' :: rest)) =
      some ([key], '=' :: ' ' :: (value ++ '\n' :: rest)) :=
    readKey_bare bare (by decide) (by simp [skipSpace, isSpace]) (steps + 1)
  have skipped : skipSpace (' ' :: (value ++ '\n' :: rest)) = value ++ '\n' :: rest :=
    (List.dropWhile_cons_of_pos (by decide)).trans (isValue.visible rest)
  rw [List.append_assoc, List.append_assoc, List.cons_append, List.cons_append, List.cons_append,
    List.nil_append]
  unfold readStatement
  split
  · next equal => exact absurd equal (ne_cons_of_bareKey bare (by decide))
  · next equal => exact absurd equal (ne_cons_of_bareKey bare (by decide))
  · simp only [bind, Option.bind, path, skipped, isValue.read]
    rfl

/-- The statement that gives a key a value. -/
def Statement.gives (gift : String × Datum) : Statement := .assign [] gift.1 gift.2

theorem Spells.entry (key : String) (bare : IsBareKey key) (isValue : IsValue value datum) :
    Spells (entry key value) ([(key, datum)].map Statement.gives) := by
  obtain ⟨first, more, chars, head⟩ := exists_bareKey_eq_cons bare
  refine .line [] (key.toList ++ [' ', '=', ' '] ++ value) (by simp) (fun rest => ?_)
    (readStatement_entry bare isValue)
  rw [chars]
  refine skipLines_cons (fun member => ?_) _
  have apart : ['\n', '\r', ' ', '\t', '#'].all (fun other => !isBareKeyChar other) = true := by
    decide
  have notBare := List.all_eq_true.mp apart first member
  rw [head] at notBare
  cases notBare

theorem Spells.textEntry (key value : String) (bare : IsBareKey key) :
    Spells (textEntry key value) ([(key, .text value)].map Statement.gives) :=
  .entry key bare (isValue_quote value)

/-- What a key is given when it is given a text that may be absent. -/
def optionalGift (key : String) (value : Option String) : List (String × Datum) :=
  value.toList.map fun text => (key, .text text)

@[simp] theorem optionalGift_none (key : String) : optionalGift key none = [] := rfl

@[simp] theorem optionalGift_some (key text : String) :
    optionalGift key (some text) = [(key, .text text)] := rfl

theorem Spells.optionalEntry (key : String) (value : Option String) (bare : IsBareKey key) :
    Spells (optionalEntry key value) ((optionalGift key value).map Statement.gives) := by
  cases value with
  | none => exact .nil
  | some text => exact .textEntry key text bare

/-- What a key is given when it is given a list in place only if the list is empty. -/
def emptyGift {α : Type} (key : String) (items : List α) : List (String × Datum) :=
  if items.isEmpty then [(key, .list [] true)] else []

theorem Spells.emptyEntry {α : Type} (key : String) (items : List α) (bare : IsBareKey key) :
    Spells (emptyEntry key items) ((emptyGift key items).map Statement.gives) := by
  cases items with
  | nil => exact .entry key bare isValue_empty
  | cons item items => exact .nil

/-- The header of a table in an array opens a new one. -/
theorem Spells.itemHeader {name : String} {path : List String} {key : String}
    (read : ∀ steps rest, readKey (steps + 2) (name.toList ++ ']' :: rest) =
      some (path ++ [key], ']' :: rest)) :
    Spells (itemHeader name) [.tableItem path key] := by
  have spells : Spells (['\n'] ++ (['[', '['] ++ name.toList ++ [']', ']']) ++ ['\n'])
      [.tableItem path key] := by
    refine .line _ _ (by simp) (fun rest => ?_) (fun steps rest => ?_)
    · simp [skipLines.eq_def, isSpace]
    · simp only [List.cons_append, List.nil_append, List.append_assoc, readStatement, read]
      simp [afterHeader?]
  simpa [Toml.itemHeader] using spells

end Toml

end ModuleRoutes
