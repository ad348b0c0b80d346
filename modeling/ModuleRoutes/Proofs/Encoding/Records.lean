import ModuleRoutes.Encoding.Datum
import ModuleRoutes.Proofs.Outcome

/-!
# Records and lists as data

A record is read from a table when its fields are taken into a draft one after another, whatever
their order, and the draft can be finished (`ModuleRoutes.Encoding.RecordReader.read_of_takes`). A
list is read when each of its items is (`ModuleRoutes.Encoding.Datum.readList_map`).
-/

namespace ModuleRoutes

namespace Encoding

/-- The field of a text, none when the text is absent. -/
def optionalField (key : String) (value : Option String) : List (Option String × Datum) :=
  value.toList.map fun text => (some key, .text text)

namespace RecordReader

variable {Draft Result : Type} {reader : RecordReader Draft Result} {format : Format}
  {draft next last : Draft} {result : Result}

/-- A reader takes fields one after another into a draft. -/
def Takes (reader : RecordReader Draft Result) (draft : Draft)
    (fields : List (Option String × Datum)) (last : Draft) : Prop :=
  fields.foldlM reader.takeField draft = .ok last

theorem Takes.nil (draft : Draft) : reader.Takes draft [] draft := rfl

theorem Takes.cons {field : Option String × Datum} {fields : List (Option String × Datum)}
    (first : reader.takeField draft field = .ok next) (rest : reader.Takes next fields last) :
    reader.Takes draft (field :: fields) last :=
  Outcome.bind_eq_ok_iff.mpr ⟨next, first, rest⟩

theorem Takes.append {before after : List (Option String × Datum)}
    (first : reader.Takes draft before next) (rest : reader.Takes next after last) :
    reader.Takes draft (before ++ after) last := by
  rw [Takes, List.foldlM_append]
  exact Outcome.bind_eq_ok_iff.mpr ⟨next, first, rest⟩

/-- A record is read when its fields are taken and the draft can be finished. -/
theorem read_of_takes {fields : List (Option String × Datum)}
    (takes : reader.Takes reader.start fields draft) (finishes : reader.finish draft = .ok result) :
    reader.read format (.record fields true) = .ok result :=
  Outcome.bind_eq_ok_iff.mpr ⟨draft, takes, finishes⟩

end RecordReader

/-- A list is read back when each of its items is. -/
theorem Datum.readList_map {α : Type} {read : Datum → Decoded α} {datum : α → Datum}
    {values : List α} (reads : ∀ value ∈ values, read (datum value) = .ok value) :
    Datum.readList read (.list (values.map datum) true) = .ok values := by
  have each : (values.map datum).mapM read = .ok values := by
    rw [Outcome.mapM_eq_ok_iff, List.forall₂_map_left_iff]
    exact List.forall₂_same.mpr reads
  exact Outcome.bind_eq_ok_iff.mpr ⟨values, each, rfl⟩

end Encoding

end ModuleRoutes
