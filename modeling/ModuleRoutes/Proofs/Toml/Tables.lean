import ModuleRoutes.Proofs.Encoding.Fields
import ModuleRoutes.Proofs.Toml.Statements

/-!
# Statements as tables

Assignments fill the table that the header before them opened, and a header in an array of tables
opens the next one. Statements that fill a table wherever it stands in a document
(`ModuleRoutes.Toml.Fills`) can be nested: a table with assignments of its own and arrays of such
tables is filled as it is filled on its own (`ModuleRoutes.Toml.Fills.items`).
-/

namespace ModuleRoutes

namespace Toml

open Encoding

/-- Putting a table in its place makes a document in which a path leads to the table. -/
def Leads (path : List String) (place : Fields → Fields) : Prop :=
  ∀ (change : Fields → Option Fields) (fields : Fields),
    Fields.descend? change path (place fields) = (change fields).map place

theorem leads_nil : Leads [] id := fun _ _ => Option.map_id'.symm

theorem descend?_append (change : Fields → Option Fields) (path more : List String)
    (fields : Fields) :
    Fields.descend? change (path ++ more) fields =
      Fields.descend? (Fields.descend? change more) path fields := by
  induction path generalizing fields with
  | nil => rfl
  | cons step path ih => simp only [List.cons_append, Fields.descend?, ih]

/-- Fields with an array of tables under a key, the latest first, but none without a table. -/
def setTables (key : String) (stack : List Fields) (fields : Fields) : Fields :=
  match stack with
  | [] => fields
  | latest :: earlier => setField key (.tables latest earlier) fields

variable {path : List String} {place : Fields → Fields} {key : String} {fields : Fields}
  {stack : List Fields} {current : List String}

theorem Leads.tables (leads : Leads path place) (key : String) (stack : List Fields)
    (fields : Fields) :
    Leads (path ++ [key]) fun inner => place (setTables key (inner :: stack) fields) := by
  intro change inner
  have within : Fields.descend? change [key] (setTables key (inner :: stack) fields) =
      (change inner).map fun changed => setTables key (changed :: stack) fields := by
    simp only [setTables, Fields.descend?, lookup_setField_self, setField_setField]
  rw [descend?_append, leads, within, Option.map_map]
  rfl

theorem extend?_setTables (absent : fields.lookup key = none) :
    Fields.extend? key (setTables key stack fields) =
      some (setTables key ([] :: stack) fields) := by
  cases stack with
  | nil => rw [Fields.extend?, setTables, absent]; rfl
  | cons latest earlier =>
      simp only [Fields.extend?, setTables, lookup_setField_self, setField_setField]

/-! ## One statement -/

theorem take?_gives (leads : Leads path place) {gift : String × Datum}
    (fresh : fields.lookup gift.1 = none) :
    Building.take? ⟨place fields, path⟩ (.gives gift) =
      some ⟨place (setField gift.1 (.value gift.2) fields), path⟩ := by
  simp only [Building.take?, Statement.gives, leads (Fields.assign? gift.2 [] gift.1) fields]
  simp [Fields.assign?, Fields.add?, fresh]

theorem take?_tableItem (leads : Leads path place) (absent : fields.lookup key = none) :
    Building.take? ⟨place (setTables key stack fields), current⟩ (.tableItem path key) =
      some ⟨place (setTables key ([] :: stack) fields), path ++ [key]⟩ := by
  simp only [Building.take?, leads (Fields.extend? key), extend?_setTables absent, Option.map_some]

/-! ## Whole tables -/

/-- Fields with values under some keys. -/
def given (gifts : List (String × Datum)) (fields : Fields) : Fields :=
  gifts.foldl (fun fields gift => setField gift.1 (.value gift.2) fields) fields

@[simp] theorem given_nil (fields : Fields) : given [] fields = fields := rfl

@[simp] theorem given_cons (gift : String × Datum) (gifts : List (String × Datum))
    (fields : Fields) :
    given (gift :: gifts) fields = given gifts (setField gift.1 (.value gift.2) fields) := rfl

@[simp] theorem given_append (gifts later : List (String × Datum)) (fields : Fields) :
    given (gifts ++ later) fields = given later (given gifts fields) := List.foldl_append

/-- Statements that fill an empty table, wherever a path to it leads. -/
def Fills (statements : List Statement) (path : List String) (fields : Fields) : Prop :=
  ∀ place, Leads path place → ∃ current,
    statements.foldlM Building.take? ⟨place [], path⟩ = some ⟨place fields, current⟩

theorem foldlM_gives (leads : Leads path place) (gifts : List (String × Datum))
    (fresh : ∀ gift ∈ gifts, fields.lookup gift.1 = none)
    (distinct : (gifts.map Prod.fst).Nodup) :
    (gifts.map Statement.gives).foldlM Building.take? ⟨place fields, path⟩ =
      some ⟨place (given gifts fields), path⟩ := by
  induction gifts generalizing fields with
  | nil => rfl
  | cons gift gifts ih =>
      obtain ⟨freshFirst, freshLater⟩ := List.forall_mem_cons.mp fresh
      rw [List.map_cons, List.nodup_cons] at distinct
      obtain ⟨apart, distinctLater⟩ := distinct
      have stillFresh : ∀ later ∈ gifts,
          (setField gift.1 (.value gift.2) fields).lookup later.1 = none := fun later member => by
        have other : later.1 ≠ gift.1 := fun same => apart (same ▸ List.mem_map_of_mem member)
        rw [lookup_setField_of_ne other, freshLater later member]
      rw [List.map_cons, List.foldlM_cons, take?_gives leads freshFirst]
      exact ih stillFresh distinctLater

theorem foldlM_items {α : Type} {body : α → List Statement} {fill : α → Fields}
    (each : ∀ item, Fills (body item) (path ++ [key]) (fill item)) (leads : Leads path place)
    (absent : fields.lookup key = none) (items : List α) (stack : List Fields)
    (current : List String) :
    ∃ last, (items.flatMap fun item => .tableItem path key :: body item).foldlM Building.take?
        ⟨place (setTables key stack fields), current⟩ =
      some ⟨place (setTables key ((items.map fill).reverse ++ stack) fields), last⟩ := by
  induction items generalizing stack current with
  | nil => exact ⟨current, rfl⟩
  | cons item items ih =>
      obtain ⟨middle, filled⟩ := each item _ (leads.tables key stack fields)
      obtain ⟨last, rest⟩ := ih (fill item :: stack) middle
      refine ⟨last, ?_⟩
      rw [List.flatMap_cons, List.cons_append, List.foldlM_cons, take?_tableItem leads absent,
        Option.bind_eq_bind, Option.bind_some, List.foldlM_append, filled, Option.bind_eq_bind,
        Option.bind_some, rest]
      simp

/-- What stands under the key of an array of tables, the latest first: a list in place when there is
no table. -/
def arrayNode (stack : List Fields) : Node :=
  match stack with
  | [] => .value (.list [] true)
  | latest :: earlier => .tables latest earlier

theorem lookup_given_of_notMem {gifts : List (String × Datum)} (apart : key ∉ gifts.map Prod.fst) :
    (given gifts fields).lookup key = fields.lookup key := by
  induction gifts generalizing fields with
  | nil => rfl
  | cons gift gifts ih =>
      obtain ⟨other, apart⟩ := List.ne_and_not_mem_of_not_mem_cons apart
      exact (ih apart).trans (lookup_setField_of_ne other _ _)

/-- A table is filled by its assignments and by an array of tables, each of which is filled. -/
theorem Fills.items {α : Type} {gifts : List (String × Datum)} {body : α → List Statement}
    {fill : α → Fields} (distinct : (gifts.map Prod.fst).Nodup) (apart : key ∉ gifts.map Prod.fst)
    (each : ∀ item, Fills (body item) (path ++ [key]) (fill item)) (items : List α) :
    Fills ((gifts ++ emptyGift key items).map Statement.gives ++
        items.flatMap fun item => .tableItem path key :: body item) path
      (setField key (arrayNode (items.map fill).reverse) (given gifts [])) := by
  intro place leads
  have fresh : (given gifts []).lookup key = none := lookup_given_of_notMem apart
  have gives : (gifts.map Statement.gives).foldlM Building.take? ⟨place [], path⟩ =
      some ⟨place (given gifts []), path⟩ := foldlM_gives leads gifts (fun _ _ => rfl) distinct
  rw [List.map_append, List.append_assoc, List.foldlM_append, gives, Option.bind_eq_bind,
    Option.bind_some]
  cases items with
  | nil =>
      refine ⟨path, ?_⟩
      exact foldlM_gives leads [(key, .list [] true)] (by simpa using fresh) (by simp)
  | cons item items =>
      obtain ⟨last, filled⟩ := foldlM_items each leads fresh (item :: items) [] path
      refine ⟨last, filled.trans ?_⟩
      rw [List.append_nil]
      cases stack : ((item :: items).map fill).reverse with
      | nil => simp at stack
      | cons latest earlier => rfl

theorem Fills.gifts {gifts : List (String × Datum)} (distinct : (gifts.map Prod.fst).Nodup)
    (path : List String) : Fills (gifts.map Statement.gives) path (given gifts []) := by
  intro place leads
  exact ⟨path, foldlM_gives leads gifts (fun _ _ => rfl) distinct⟩

/-! ## The datum of a document -/

theorem tableData_eq (earlier : List Fields) (later : List Datum) :
    tableData earlier later =
      (earlier.reverse.map fun fields => .record (fieldData fields) true) ++ later := by
  induction earlier generalizing later with
  | nil => rfl
  | cons fields earlier ih => simp [tableData, ih]

/-- The datum of an array of tables lists them in the order of their headers. -/
theorem datum_arrayNode (stack : List Fields) :
    (arrayNode stack).datum =
      .list (stack.reverse.map fun fields => .record (fieldData fields) true) true := by
  cases stack with
  | nil => simp [arrayNode, Node.datum]
  | cons latest earlier => simp [arrayNode, Node.datum, tableData_eq]

theorem fieldData_eq_map (fields : Fields) :
    fieldData fields = fields.map fun field => (some field.1, field.2.datum) := by
  induction fields with
  | nil => rw [fieldData, List.map_nil]
  | cons field fields ih => rw [fieldData, ih, List.map_cons]

/-- A text that spells statements is read as the document that they fill. -/
theorem readDocument?_of_spells {text : List Char} {statements : List Statement}
    (spells : Spells text statements) (fills : Fills statements [] fields)
    (nonempty : statements ≠ []) (noMark : text.head? ≠ some '\uFEFF') :
    readDocument? (String.ofList text) = some (.record (fieldData fields) true) := by
  have unmarked : dropMark (String.ofList text).toList = text := by
    rw [String.toList_ofList]
    unfold dropMark
    split
    · exact absurd rfl noMark
    · rfl
  have read : readStatements (text.length + 1) text = some statements := by
    have positive := List.length_pos_iff.mpr nonempty
    have short := spells.length_le
    obtain ⟨steps, split⟩ : ∃ steps, text.length + 1 = statements.length + (steps + 2) :=
      ⟨text.length + 1 - statements.length - 2, by omega⟩
    have whole := spells.read (steps + 2) [] (Nat.le_add_left 2 steps)
    rw [List.append_nil] at whole
    rw [split, whole, readStatements, skipLines]
    simp
  obtain ⟨current, built⟩ := fills id leads_nil
  simp only [readDocument?, unmarked, read, bind, Option.bind]
  rw [show statements.foldlM Building.take? ⟨[], []⟩ = _ from built]
  rfl

end Toml

end ModuleRoutes
