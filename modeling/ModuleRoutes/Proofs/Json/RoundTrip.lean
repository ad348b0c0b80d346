import ModuleRoutes.Proofs.Encoding.Records
import ModuleRoutes.Proofs.Json.Text

/-!
# Reading written JSON

A value without numbers is read back as it was written, compactly or over several lines
(`ModuleRoutes.Json.readValue_write`). The steps that reading takes are bounded by the length of the
written text, so a document is always read to its end (`ModuleRoutes.Json.decode_write`).
-/

namespace ModuleRoutes

namespace Json

open Encoding

/-! ## Values and their data -/

mutual

/-- The datum that a value is read as. -/
def toDatum : Json → Datum
  | .null => .null
  | .bool value => .bool value
  | .int value => .int value
  | .real value => .real (.finite value)
  | .str value => .text value
  | .arr items => .list (itemData items) true
  | .obj fields => .record (fieldData fields) true

/-- The data of the items of an array. -/
def itemData : List Json → List Datum
  | [] => []
  | item :: items => toDatum item :: itemData items

/-- The data of the fields of an object. -/
def fieldData : List (String × Json) → List (Option String × Datum)
  | [] => []
  | (key, value) :: fields => (some key, toDatum value) :: fieldData fields

end

mutual

/-- Whether no number stands anywhere in a value. -/
def numberFree : Json → Bool
  | .int _ => false
  | .real _ => false
  | .arr items => itemsNumberFree items
  | .obj fields => fieldsNumberFree fields
  | _ => true

/-- Whether no number stands anywhere in a list of items. -/
def itemsNumberFree : List Json → Bool
  | [] => true
  | item :: items => numberFree item && itemsNumberFree items

/-- Whether no number stands anywhere in a list of fields. -/
def fieldsNumberFree : List (String × Json) → Bool
  | [] => true
  | (_, value) :: fields => numberFree value && fieldsNumberFree fields

end

theorem itemData_eq_map (items : List Json) : itemData items = items.map toDatum := by
  induction items with
  | nil => rw [itemData, List.map_nil]
  | cons item items ih => rw [itemData, ih, List.map_cons]

theorem itemsNumberFree_eq_all (items : List Json) :
    itemsNumberFree items = items.all numberFree := by
  induction items with
  | nil => rw [itemsNumberFree, List.all_nil]
  | cons item items ih => rw [itemsNumberFree, ih, List.all_cons]

theorem toDatum_obj (fields : List (String × Json)) :
    (obj fields).toDatum = .record (fieldData fields) true := by
  rw [toDatum]

theorem fieldData_append (before after : List (String × Json)) :
    fieldData (before ++ after) = fieldData before ++ fieldData after := by
  induction before with
  | nil => rw [fieldData, List.nil_append, List.nil_append]
  | cons field before ih =>
      rw [List.cons_append, fieldData, fieldData, ih, List.cons_append]

/-- A text that may be absent is read as the field that it may be. -/
theorem fieldData_optionalText (key : String) (value : Option String) :
    fieldData (optionalText key value) = optionalField key value := by
  cases value <;> rfl

theorem toDatum_arr_map {α : Type} (encode : α → Json) (values : List α) :
    (arr (values.map encode)).toDatum =
      .list (values.map fun value => (encode value).toDatum) true := by
  rw [toDatum, itemData_eq_map, List.map_map]
  rfl

theorem fieldsNumberFree_append (before after : List (String × Json)) :
    fieldsNumberFree (before ++ after) = (fieldsNumberFree before && fieldsNumberFree after) := by
  induction before with
  | nil => rw [fieldsNumberFree, List.nil_append, Bool.true_and]
  | cons field before ih =>
      rw [List.cons_append, fieldsNumberFree, fieldsNumberFree, ih, Bool.and_assoc]

theorem fieldsNumberFree_optionalText (key : String) (value : Option String) :
    fieldsNumberFree (optionalText key value) = true := by
  cases value <;> rfl

theorem itemsNumberFree_map {α : Type} {encode : α → Json}
    (free : ∀ value, (encode value).numberFree = true) (values : List α) :
    itemsNumberFree (values.map encode) = true := by
  rw [itemsNumberFree_eq_all, List.all_eq_true]
  exact List.forall_mem_map.mpr fun value _ => free value

/-! ## Space -/

theorem skipSpace_of_not_isSpace {c : Char} (visible : isSpace c = false) (text : List Char) :
    skipSpace (c :: text) = c :: text :=
  List.dropWhile_cons_of_neg (by simp [visible])

/-- The break before an item is nothing but space. -/
theorem skipSpace_lineStart_append (pretty : Bool) (depth : Nat) (text : List Char) :
    skipSpace (lineStart pretty depth ++ text) = skipSpace text := by
  have spaces : ∀ c ∈ lineStart pretty depth, isSpace c = true := by
    intro c mem
    cases pretty with
    | false => cases mem
    | true =>
      rcases List.mem_cons.mp mem with rfl | indentation
      · rfl
      · rw [List.eq_of_mem_replicate indentation]
        rfl
  exact List.dropWhile_append_of_pos spaces

theorem readValue_congr {text other : List Char} (same : skipSpace text = skipSpace other)
    (steps : Nat) : readValue steps text = readValue steps other := by
  cases steps with
  | zero => rw [readValue, readValue]
  | succ steps => rw [readValue, readValue, same]

theorem readValue_lineStart_append (steps : Nat) (pretty : Bool) (depth : Nat) (text : List Char) :
    readValue steps (lineStart pretty depth ++ text) = readValue steps text :=
  readValue_congr (skipSpace_lineStart_append pretty depth text) steps

/-- A value without numbers starts with a character that is neither space nor the end of a
container. -/
theorem exists_write_eq_cons {value : Json} (free : value.numberFree = true) (pretty : Bool)
    (depth : Nat) : ∃ c text, value.write pretty depth = c :: text ∧ isSpace c = false ∧
      c ≠ ']' := by
  match value with
  | .null => exact ⟨'n', _, by rw [write]; rfl, rfl, by decide⟩
  | .bool true => exact ⟨'t', _, by rw [write]; rfl, rfl, by decide⟩
  | .bool false => exact ⟨'f', _, by rw [write]; rfl, rfl, by decide⟩
  | .int _ => simp [numberFree] at free
  | .real _ => simp [numberFree] at free
  | .str _ => exact ⟨'"', _, by rw [write]; rfl, rfl, by decide⟩
  | .arr [] => exact ⟨'[', _, by rw [write], rfl, by decide⟩
  | .arr (_ :: _) => exact ⟨'[', _, by rw [write]; rfl, rfl, by decide⟩
  | .obj [] => exact ⟨'\x7b', _, by rw [write], rfl, by decide⟩
  | .obj (_ :: _) => exact ⟨'\x7b', _, by rw [write]; rfl, rfl, by decide⟩

/-! ## One value -/

theorem readValue_quote (steps : Nat) (text : String) (rest : List Char) :
    readValue (steps + 1) (quote text ++ rest) = (.text text, some rest) := by
  have quoted : quote text ++ rest = '"' :: (text.toList.flatMap escapeChar ++ '"' :: rest) := by
    simp [quote]
  rw [quoted, readValue, skipSpace_of_not_isSpace rfl]
  simp only [readText_quoted]

theorem readValue_bracket {steps : Nat} {text : List Char}
    (occupied : ∀ rest, skipSpace text ≠ ']' :: rest) :
    readValue (steps + 1) ('[' :: text) =
      (.list (readItems steps text).1 (readItems steps text).2.isSome,
        (readItems steps text).2) := by
  rw [readValue, skipSpace_of_not_isSpace rfl]
  simp only

theorem readValue_brace {steps : Nat} {text : List Char}
    (occupied : ∀ rest, skipSpace text ≠ '\x7d' :: rest) :
    readValue (steps + 1) ('\x7b' :: text) =
      (.record (readFields steps text).1 (readFields steps text).2.isSome,
        (readFields steps text).2) := by
  rw [readValue, skipSpace_of_not_isSpace rfl]
  simp only

/-- The first item of an array stands behind its bracket. -/
theorem exists_writeItems_cons (pretty : Bool) (depth : Nat) (item : Json) (items : List Json) :
    ∃ more, writeItems pretty depth (item :: items) =
      lineStart pretty depth ++ (item.write pretty depth ++ more) := by
  cases items with
  | nil => exact ⟨[], by rw [writeItems, List.append_nil]⟩
  | cons next items =>
    exact ⟨',' :: writeItems pretty depth (next :: items), by simp [writeItems]⟩

theorem skipSpace_writeItems_ne {item : Json} (free : item.numberFree = true) (pretty : Bool)
    (depth : Nat) (items : List Json) (text rest : List Char) :
    skipSpace (writeItems pretty depth (item :: items) ++ text) ≠ ']' :: rest := by
  obtain ⟨more, items⟩ := exists_writeItems_cons pretty depth item items
  obtain ⟨c, tail, written, visible, noBracket⟩ := exists_write_eq_cons free pretty depth
  rw [items, written, List.append_assoc, skipSpace_lineStart_append, List.cons_append,
    List.cons_append, skipSpace_of_not_isSpace visible]
  exact fun same => noBracket (List.cons.inj same).1

/-- The key of the first field of an object stands behind its brace. -/
theorem exists_writeFields_cons (pretty : Bool) (depth : Nat) (field : String × Json)
    (fields : List (String × Json)) : ∃ more, writeFields pretty depth (field :: fields) =
      lineStart pretty depth ++ ('"' :: more) := by
  obtain ⟨key, value⟩ := field
  cases fields with
  | nil => simp [writeFields, writeField, quote]
  | cons next fields => simp [writeFields, writeField, quote]

theorem skipSpace_writeFields_ne (pretty : Bool) (depth : Nat) (field : String × Json)
    (fields : List (String × Json)) (text rest : List Char) :
    skipSpace (writeFields pretty depth (field :: fields) ++ text) ≠ '\x7d' :: rest := by
  obtain ⟨more, fields⟩ := exists_writeFields_cons pretty depth field fields
  rw [fields, List.append_assoc, skipSpace_lineStart_append, List.cons_append,
    skipSpace_of_not_isSpace rfl]
  exact fun same => absurd (List.cons.inj same).1 (by decide)

/-- A field with the fields behind it, of which a comma or the closing brace tells whether there are
any. -/
def afterField (steps : Nat) (field : Option String × Datum) (text : List Char) :
    List (Option String × Datum) × Option (List Char) :=
  match skipSpace text with
  | ',' :: more => (field :: (readFields steps more).1, (readFields steps more).2)
  | '\x7d' :: more => ([field], some more)
  | _ => ([field], none)

/-- A field is read up to its end when its value is. -/
theorem readFields_writeField {value : Json} {datum : Datum} {pretty : Bool} {depth steps : Nat}
    {tail : List Char}
    (reads : readValue steps (value.write pretty depth ++ tail) = (datum, some tail))
    (key : String) :
    readFields (steps + 1)
        (lineStart pretty depth ++ (writeField pretty depth key value ++ tail)) =
      afterField steps (some key, datum) tail := by
  have written : writeField pretty depth key value ++ tail =
      '"' :: (key.toList.flatMap escapeChar ++ '"' :: ':' :: ((if pretty then [' '] else [])
        ++ (value.write pretty depth ++ tail))) := by
    cases pretty <;> simp [writeField, quote]
  have gap : readValue steps ((if pretty then [' '] else []) ++ (value.write pretty depth ++ tail))
      = (datum, some tail) := by
    rw [← reads]
    exact readValue_congr (by cases pretty <;> rfl) steps
  rw [written, readFields, skipSpace_lineStart_append, skipSpace_of_not_isSpace rfl]
  simp only [readText_quoted]
  rw [skipSpace_of_not_isSpace rfl]
  simp only [gap]
  rfl

/-! ## Values inside values -/

mutual

/-- A value without numbers is read back from its text, whatever follows. -/
theorem readValue_write (value : Json) (free : value.numberFree = true) (pretty : Bool)
    (depth steps : Nat) (bound : (value.write pretty depth).length ≤ steps) (rest : List Char) :
    readValue steps (value.write pretty depth ++ rest) = (value.toDatum, some rest) := by
  obtain ⟨c, tail, written, -, -⟩ := exists_write_eq_cons free pretty depth
  obtain ⟨steps, rfl⟩ : ∃ fewer, steps = fewer + 1 :=
    ⟨steps - 1, by rw [written, List.length_cons] at bound; omega⟩
  match value with
  | .null => rw [write, readValue]; rfl
  | .bool true => rw [write, readValue]; rfl
  | .bool false => rw [write, readValue]; rfl
  | .int _ => simp [numberFree] at free
  | .real _ => simp [numberFree] at free
  | .str text => rw [write, readValue_quote, toDatum]
  | .arr [] => rw [write, readValue]; rfl
  | .obj [] => rw [write, readValue]; rfl
  | .arr (item :: items) =>
    have written : write pretty depth (.arr (item :: items)) ++ rest =
        '[' :: (writeItems pretty (depth + 1) (item :: items)
          ++ (lineStart pretty depth ++ ']' :: rest)) := by simp [write]
    have shorter : (writeItems pretty (depth + 1) (item :: items)).length < steps := by
      simp only [write, List.length_cons, List.length_append] at bound
      omega
    have freeItem : item.numberFree = true := by
      rw [numberFree, itemsNumberFree, Bool.and_eq_true] at free
      exact free.1
    rw [written, readValue_bracket fun _ => skipSpace_writeItems_ne freeItem _ _ _ _ _,
      readItems_write (item :: items) free (by simp) _ _ _ shorter, toDatum]
    rfl
  | .obj (field :: fields) =>
    have written : write pretty depth (.obj (field :: fields)) ++ rest =
        '\x7b' :: (writeFields pretty (depth + 1) (field :: fields)
          ++ (lineStart pretty depth ++ '\x7d' :: rest)) := by simp [write]
    have shorter : (writeFields pretty (depth + 1) (field :: fields)).length < steps := by
      simp only [write, List.length_cons, List.length_append] at bound
      omega
    rw [written, readValue_brace fun _ => skipSpace_writeFields_ne _ _ _ _ _ _,
      readFields_write (field :: fields) free (by simp) _ _ _ shorter, toDatum]
    rfl

/-- Items are read back up to the bracket behind them. -/
theorem readItems_write (items : List Json) (free : itemsNumberFree items = true)
    (occupied : items ≠ []) (pretty : Bool) (depth steps : Nat)
    (bound : (writeItems pretty depth items).length < steps) (closing : Nat) (rest : List Char) :
    readItems steps (writeItems pretty depth items ++ (lineStart pretty closing ++ ']' :: rest)) =
      (itemData items, some rest) := by
  obtain ⟨steps, rfl⟩ : ∃ fewer, steps = fewer + 1 := ⟨steps - 1, by omega⟩
  match items with
  | [] => exact absurd rfl occupied
  | [item] =>
    simp only [writeItems, List.length_append] at bound
    rw [itemsNumberFree, Bool.and_eq_true] at free
    rw [writeItems, List.append_assoc, readItems, readValue_lineStart_append,
      readValue_write item free.1 pretty depth steps (by omega)]
    simp only [skipSpace_lineStart_append, itemData]
    rfl
  | item :: next :: items =>
    simp only [writeItems, List.length_append, List.length_cons, List.length_nil] at bound
    rw [itemsNumberFree, Bool.and_eq_true] at free
    have written : writeItems pretty depth (item :: next :: items)
          ++ (lineStart pretty closing ++ ']' :: rest) =
        lineStart pretty depth ++ (item.write pretty depth
          ++ ',' :: (writeItems pretty depth (next :: items)
            ++ (lineStart pretty closing ++ ']' :: rest))) := by simp [writeItems]
    rw [written, readItems, readValue_lineStart_append,
      readValue_write item free.1 pretty depth steps (by omega)]
    simp only
    rw [skipSpace_of_not_isSpace rfl]
    simp only
    rw [readItems_write (next :: items) free.2 (by simp) pretty depth steps (by omega),
      itemData.eq_2 item]

/-- Fields are read back up to the brace behind them. -/
theorem readFields_write (fields : List (String × Json)) (free : fieldsNumberFree fields = true)
    (occupied : fields ≠ []) (pretty : Bool) (depth steps : Nat)
    (bound : (writeFields pretty depth fields).length < steps) (closing : Nat)
    (rest : List Char) :
    readFields steps
        (writeFields pretty depth fields ++ (lineStart pretty closing ++ '\x7d' :: rest)) =
      (fieldData fields, some rest) := by
  obtain ⟨steps, rfl⟩ : ∃ fewer, steps = fewer + 1 := ⟨steps - 1, by omega⟩
  match fields with
  | [] => exact absurd rfl occupied
  | [(key, value)] =>
    simp only [writeFields, writeField, List.length_append] at bound
    rw [fieldsNumberFree, Bool.and_eq_true] at free
    rw [writeFields, List.append_assoc,
      readFields_writeField (readValue_write value free.1 pretty depth steps (by omega) _),
      afterField, skipSpace_lineStart_append]
    simp only [fieldData]
    rfl
  | (key, value) :: next :: fields =>
    simp only [writeFields, writeField, List.length_append, List.length_cons,
      List.length_nil] at bound
    rw [fieldsNumberFree, Bool.and_eq_true] at free
    have written : writeFields pretty depth ((key, value) :: next :: fields)
          ++ (lineStart pretty closing ++ '\x7d' :: rest) =
        lineStart pretty depth ++ (writeField pretty depth key value
          ++ ',' :: (writeFields pretty depth (next :: fields)
            ++ (lineStart pretty closing ++ '\x7d' :: rest))) := by simp [writeFields]
    rw [written,
      readFields_writeField (readValue_write value free.1 pretty depth steps (by omega) _),
      afterField, skipSpace_of_not_isSpace rfl]
    simp only
    rw [readFields_write (next :: fields) free.2 (by simp) pretty depth steps (by omega),
      fieldData.eq_2 key value]

end

/-! ## Documents -/

/-- The text of a value is read as the data of the value. -/
theorem readDocument_write {value : Json} (free : value.numberFree = true) (pretty : Bool) :
    readDocument (value.write pretty 0) = (value.toDatum, true) := by
  have whole := readValue_write value free pretty 0 ((value.write pretty 0).length + 1)
    (Nat.le_succ _) []
  rw [List.append_nil] at whole
  rw [readDocument, whole]
  rfl

/-- What a reader makes of the data of a value is what it makes of the text of the value. -/
theorem decode_write {α : Type} {read : Datum → Decoded α} {value : Json} {result : α}
    (free : value.numberFree = true) (reads : read value.toDatum = .ok result) (pretty : Bool) :
    decode read (String.ofList (value.write pretty 0)) = .ok result := by
  simp only [decode, String.toList_ofList, readDocument_write free, reads]
  rfl

theorem parse?_compact {value : Json} (free : value.numberFree = true) :
    parse? value.compact = ofDatum? depthLimit value.toDatum := by
  rw [parse?, parseWithin?, compact, String.toList_ofList, readDocument_write free]

end Json

end ModuleRoutes
