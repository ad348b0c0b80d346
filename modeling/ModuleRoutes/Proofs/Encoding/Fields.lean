import Mathlib.Data.List.Perm.Basic
import Mathlib.Data.String.Basic
import ModuleRoutes.Encoding.Fields

/-!
# Fields in ascending order

Setting a field keeps fields in ascending order of keys, and then puts its value in place of every
other value under its key (`ModuleRoutes.Encoding.setField_perm`).
-/

namespace ModuleRoutes

namespace Encoding

variable {α : Type} {key : String} {value : α} {fields : List (String × α)}

theorem lookup_setField_self (key : String) (value : α) (fields : List (String × α)) :
    (setField key value fields).lookup key = some value := by
  induction fields with
  | nil => exact List.lookup_cons_self
  | cons field fields ih =>
      unfold setField
      split
      · exact List.lookup_cons_self
      split
      · exact List.lookup_cons_self
      · next other =>
        rw [List.lookup_cons, beq_eq_false_iff_ne.mpr other]
        exact ih

theorem lookup_setField_of_ne {other : String} (apart : other ≠ key) (value : α)
    (fields : List (String × α)) :
    (setField key value fields).lookup other = fields.lookup other := by
  have passed : (other == key) = false := beq_eq_false_iff_ne.mpr apart
  induction fields with
  | nil => rw [setField, List.lookup_cons, passed]
  | cons field fields ih =>
      unfold setField
      split
      · rw [List.lookup_cons, passed]
      split
      · next same => rw [List.lookup_cons, List.lookup_cons, passed, ← same, passed]
      · rw [List.lookup_cons, List.lookup_cons, ih]

/-- Of two values set under a key the later one stays. -/
theorem setField_setField (key : String) (first second : α) (fields : List (String × α)) :
    setField key second (setField key first fields) = setField key second fields := by
  have head : ∀ fields : List (String × α),
      setField key second ((key, first) :: fields) = (key, second) :: fields := fun fields => by
    rw [setField, if_neg (lt_irrefl key), if_pos rfl]
  induction fields with
  | nil => exact head []
  | cons field fields ih =>
      obtain ⟨other, old⟩ := field
      by_cases before : key < other
      · rw [setField, if_pos before, head, setField, if_pos before]
      · by_cases same : key = other
        · rw [setField, if_neg before, if_pos same, head, setField, if_neg before, if_pos same]
        · rw [setField, if_neg before, if_neg same, setField, if_neg before, if_neg same, ih,
            setField, if_neg before, if_neg same]

/-- Fields in ascending order of keys, each key once. -/
def Ascending (fields : List (String × α)) : Prop :=
  fields.Pairwise fun first second => first.1 < second.1

theorem filter_ne_of_lt (below : ∀ field ∈ fields, key < field.1) :
    (fields.filter fun field => field.1 ≠ key) = fields :=
  List.filter_eq_self.mpr fun field member => by simpa using (below field member).ne'

/-- Setting a field replaces what is under its key. -/
theorem setField_perm (ascending : Ascending fields) :
    (setField key value fields).Perm
      ((key, value) :: fields.filter fun field => field.1 ≠ key) := by
  induction fields with
  | nil => exact .refl _
  | cons field fields ih =>
      obtain ⟨above, later⟩ := List.pairwise_cons.mp ascending
      unfold setField
      by_cases before : key < field.1
      · rw [if_pos before, filter_ne_of_lt (List.forall_mem_cons.mpr
          ⟨before, fun other member => before.trans (above other member)⟩)]
      · rw [if_neg before]
        by_cases same : key = field.1
        · rw [if_pos same, List.filter_cons_of_neg (by simpa using same.symm),
            filter_ne_of_lt fun other member => same ▸ above other member]
        · rw [if_neg same, List.filter_cons_of_pos (by simpa using Ne.symm same)]
          exact ((ih later).cons field).trans (.swap _ _ _)

/-- Setting a field keeps the order of the others. -/
theorem ascending_setField (ascending : Ascending fields) :
    Ascending (setField key value fields) := by
  induction fields with
  | nil => exact List.pairwise_singleton _ _
  | cons field fields ih =>
      obtain ⟨above, later⟩ := List.pairwise_cons.mp ascending
      unfold setField
      by_cases before : key < field.1
      · rw [if_pos before]
        exact List.pairwise_cons.mpr ⟨List.forall_mem_cons.mpr
          ⟨before, fun other member => before.trans (above other member)⟩, ascending⟩
      · rw [if_neg before]
        by_cases same : key = field.1
        · rw [if_pos same]
          exact List.pairwise_cons.mpr ⟨fun other member => same ▸ above other member, later⟩
        · rw [if_neg same]
          refine List.pairwise_cons.mpr ⟨fun other member => ?_, ih later⟩
          rcases List.mem_cons.mp ((setField_perm later).mem_iff.mp member) with rfl | kept
          · exact lt_of_le_of_ne (not_lt.mp before) (Ne.symm same)
          · exact above other (List.mem_filter.mp kept).1

/-! ## Several fields -/

/-- The value of the last pair with a key. -/
def lastOf? (key : String) (pairs : List (String × α)) : Option α := pairs.reverse.lookup key

/-- Fields with those of some pairs set one after the other. -/
def setFields (pairs fields : List (String × α)) : List (String × α) :=
  pairs.foldl (fun fields pair => setField pair.1 pair.2 fields) fields

theorem lastOf?_append (key : String) (first second : List (String × α)) :
    lastOf? key (first ++ second) = (lastOf? key second).or (lastOf? key first) := by
  rw [lastOf?, List.reverse_append, List.lookup_append]
  rfl

theorem lastOf?_cons (key : String) (pair : String × α) (pairs : List (String × α)) :
    lastOf? key (pair :: pairs) = (lastOf? key pairs).or ([pair].lookup key) := by
  exact lastOf?_append key [pair] pairs

theorem mem_of_lastOf? {pairs : List (String × α)} (last : lastOf? key pairs = some value) :
    (key, value) ∈ pairs := by
  obtain ⟨before, after, cut, -⟩ := List.lookup_eq_some_iff.mp last
  rw [← List.mem_reverse, cut]
  exact List.mem_append_right _ List.mem_cons_self

theorem lastOf?_map {β : Type} (f : α → β) (key : String) (pairs : List (String × α)) :
    lastOf? key (pairs.map fun pair => (pair.1, f pair.2)) = (lastOf? key pairs).map f := by
  induction pairs with
  | nil => rfl
  | cons pair pairs ih =>
      have single : [(pair.1, f pair.2)].lookup key = ([pair].lookup key).map f := by
        rw [List.lookup_cons, List.lookup_cons]
        cases key == pair.1 <;> rfl
      rw [List.map_cons, lastOf?_cons, lastOf?_cons, ih, single, Option.map_or]

/-- The last pair with a key gives its value; without one the value stays as it was. -/
theorem lookup_setFields (key : String) (pairs fields : List (String × α)) :
    (setFields pairs fields).lookup key = (lastOf? key pairs).or (fields.lookup key) := by
  induction pairs generalizing fields with
  | nil => rfl
  | cons pair pairs ih =>
      have first : (setField pair.1 pair.2 fields).lookup key =
          ([pair].lookup key).or (fields.lookup key) := by
        by_cases same : key = pair.1
        · subst same
          rw [lookup_setField_self, List.lookup_cons_self, Option.some_or]
        · rw [lookup_setField_of_ne same, List.lookup_cons, beq_eq_false_iff_ne.mpr same,
            List.lookup_nil, Option.none_or]
      rw [lastOf?_cons, Option.or_assoc, ← first]
      exact ih _

theorem setFields_append (first second fields : List (String × α)) :
    setFields (first ++ second) fields = setFields second (setFields first fields) :=
  List.foldl_append

theorem ascending_setFields {pairs : List (String × α)} (ascending : Ascending fields) :
    Ascending (setFields pairs fields) := by
  induction pairs generalizing fields with
  | nil => exact ascending
  | cons pair pairs ih => exact ih (ascending_setField ascending)

/-- In ascending fields the last pair with a key is the only one. -/
theorem lastOf?_eq_lookup (ascending : Ascending fields) (key : String) :
    lastOf? key fields = fields.lookup key := by
  induction fields with
  | nil => rfl
  | cons field fields ih =>
      obtain ⟨above, later⟩ := List.pairwise_cons.mp ascending
      rw [lastOf?_cons, ih later, List.lookup_cons, List.lookup_cons]
      by_cases same : key = field.1
      · have absent : fields.lookup key = none := by
          rw [List.lookup_eq_none_iff]
          exact fun other member => bne_iff_ne.mpr (same ▸ (above other member).ne)
        rw [absent, Option.none_or, same, beq_self_eq_true]
      · rw [beq_eq_false_iff_ne.mpr same, List.lookup_nil, Option.or_none]

/-- Ascending fields are the value under a key, if there is one, and the fields under other keys. -/
theorem perm_lookup (ascending : Ascending fields) (key : String) :
    fields.Perm (((fields.lookup key).toList.map fun value => (key, value)) ++
      fields.filter fun field => field.1 ≠ key) := by
  induction fields with
  | nil => exact .refl _
  | cons field fields ih =>
      obtain ⟨above, later⟩ := List.pairwise_cons.mp ascending
      rw [List.lookup_cons]
      by_cases same : key = field.1
      · subst same
        rw [beq_self_eq_true, List.filter_cons_of_neg (by simp), filter_ne_of_lt above]
        exact .refl _
      · have passed : (key == field.1) = false := by simpa using same
        rw [passed, List.filter_cons_of_pos (by simpa using Ne.symm same)]
        exact ((ih later).cons field).trans List.perm_middle.symm

/-- In ascending fields the value under a key is that of its only field. -/
theorem lookup_eq_some_iff_mem (ascending : Ascending fields) :
    fields.lookup key = some value ↔ (key, value) ∈ fields := by
  rw [(perm_lookup ascending key).mem_iff, List.mem_append, List.mem_map, List.mem_filter]
  simp

end Encoding

end ModuleRoutes
